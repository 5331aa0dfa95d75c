import Concordance.Json.Value
import Concordance.Report.Basic

set_option autoImplicit false

/-!
# Statistics of a run

The totals over all reports, and the average score to one decimal place.
-/

namespace Concordance

/-- The totals over reports. -/
structure Statistics where
  concepts : Nat
  errors : Nat
  warnings : Nat
  infos : Nat
  /-- The average score in tenths. -/
  averageTenths : Nat
deriving DecidableEq

namespace Statistics

/-- The sum of a count over reports. The zero to start from is named, since a larger library finds
it by other ways. -/
def total (count : Report → Nat) (reports : List Report) : Nat :=
  @List.sum Nat _ Zero.ofOfNat0 (reports.map count)

/-- The average of numbers with a given sum in tenths, to the nearest one; a half goes up. It is
zero if there are no numbers. -/
def tenthsOfAverage (sum count : Nat) : Nat := (20 * sum + count) / (2 * count)

/-- The statistics of reports. -/
def ofReports (reports : List Report) : Statistics :=
  { concepts := reports.length
    errors := total (fun r => r.summary.errorCount) reports
    warnings := total (fun r => r.summary.warningCount) reports
    infos := total (fun r => r.summary.infoCount) reports
    averageTenths := tenthsOfAverage (total (fun r => r.summary.score) reports) reports.length }

/-- The average score with as few digits as it needs. -/
def averageText (s : Statistics) : Text :=
  Text.ofNat (s.averageTenths / 10) ++
    Text.onlyIf (s.averageTenths % 10 ≠ 0) ('.' :: Text.ofNat (s.averageTenths % 10))

/-- The average score with one decimal place. -/
def averageNumeral (s : Statistics) : Numeral :=
  { negative := false, whole := Text.ofNat (s.averageTenths / 10)
    fraction := Text.ofNat (s.averageTenths % 10), exponent := none }

end Statistics

end Concordance
