import Concordance.Text.Basic

set_option autoImplicit false

/-!
# Time stamps

The date and time of a number of seconds after the beginning of 1970, in the Gregorian calendar and
in universal time. Years are counted from March, so that a leap day is the last one of its year,
and in eras of 400 years, which all have the same number of days.
-/

namespace Concordance

/-- A date. -/
structure Date where
  year : Nat
  month : Nat
  day : Nat
deriving DecidableEq

namespace Date

/-- The number of days of 400 years. -/
def daysOfEra : Nat := 146097

/-- The number of days from the first of March of the year 0 to the beginning of 1970. -/
def daysBeforeEpoch : Nat := 719468

/-- The year within its era of a day of the era. -/
def yearOfEra (day : Nat) : Nat := (day - day / 1460 + day / 36524 - day / 146096) / 365

/-- The date of a number of days after the beginning of 1970. -/
def ofDays (days : Nat) : Date :=
  let days := days + daysBeforeEpoch
  let dayOfEra := days % daysOfEra
  let year := yearOfEra dayOfEra
  let dayOfYear := dayOfEra - (365 * year + year / 4 - year / 100)
  let month := (5 * dayOfYear + 2) / 153
  let january := month ≥ 10
  { year := 400 * (days / daysOfEra) + year + if january then 1 else 0
    month := if january then month - 9 else month + 3
    day := dayOfYear - (153 * month + 2) / 5 + 1 }

end Date

namespace TimeStamp

open Text

/-- A number with at least so many digits. -/
def padded (width n : Nat) : Text :=
  List.replicate (width - (ofNat n).length) '0' ++ ofNat n

/-- The time stamp of a number of seconds after the beginning of 1970. -/
def ofSeconds (seconds : Nat) : Text :=
  let date := Date.ofDays (seconds / 86400)
  padded 4 date.year ++ "-" ++ padded 2 date.month ++ "-" ++ padded 2 date.day ++ "T" ++
    padded 2 (seconds / 3600 % 24) ++ ":" ++ padded 2 (seconds / 60 % 60) ++ ":" ++
    padded 2 (seconds % 60) ++ "Z"

end TimeStamp

end Concordance
