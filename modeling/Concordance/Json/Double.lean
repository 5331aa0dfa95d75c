import Concordance.Json.Value

set_option autoImplicit false

/-!
# Numerals as doubles

The double that a numeral denotes. As many leading digits are kept as fit into a word of 64 bits;
the whole digits beyond them only count for the scale, and so does the exponent. A numeral beyond
the largest double denotes none.
-/

namespace Concordance.Numeral

/-- The largest number that the kept digits make. -/
def significandLimit : Nat := 0xFFFFFFFFFFFFFFFF

/-- The number that a digit appended to the kept ones gives, if it can be kept. -/
def append? (kept : Nat) (digit : Char) : Option Nat :=
  let next := kept * 10 + (digit.toNat - '0'.toNat)
  if next ≤ significandLimit then some next else none

/-- Keeps whole digits, and counts those that cannot be kept. -/
def keepWhole (kept : Nat) : Text → Nat × Nat
  | [] => (kept, 0)
  | d :: rest =>
    match append? kept d with
    | some next => keepWhole next rest
    | none => (kept, rest.length + 1)

/-- Keeps digits of the fraction, and counts those that were kept. -/
def keepFraction (kept : Nat) : Text → Nat × Nat
  | [] => (kept, 0)
  | d :: rest =>
    match append? kept d with
    | some next =>
      let (significand, count) := keepFraction next rest
      (significand, count + 1)
    | none => (kept, 0)

/-- The number that digits make. -/
def natOfDigits (digits : Text) : Nat :=
  digits.foldl (fun n d => n * 10 + (d.toNat - '0'.toNat)) 0

/-- The value of an exponent. -/
def exponentValue : Option (Bool × Text) → Int
  | none => 0
  | some (negative, digits) =>
    if negative then -(natOfDigits digits : Int) else (natOfDigits digits : Int)

/-- The largest power of ten among the doubles. -/
def largestPower : Nat := 308

/-- A power of ten as a double. -/
def power (n : Nat) : Float := Float.ofScientific 1 false n

/-- A number scaled by a power of ten, unless that leaves the range of doubles. A power too small
for the doubles leaves nothing. -/
def scale? (significand : Nat) (exponent : Int) : Option Float :=
  let f := (UInt64.ofNat significand).toFloat
  if exponent < 0 then
    let n := exponent.natAbs
    some (if n ≤ largestPower then f / power n else 0)
  else if significand = 0 then some 0
  else if largestPower < exponent.natAbs then none
  else
    let scaled := f * power exponent.natAbs
    if scaled.isInf then none else some scaled

/-- The absolute value of the double that a numeral denotes. -/
def magnitude? (n : Numeral) : Option Float :=
  let (kept, dropped) := keepWhole 0 n.whole
  let (significand, taken) := keepFraction kept n.fraction
  scale? significand ((dropped : Int) - (taken : Int) + exponentValue n.exponent)

/-- The natural number that a numeral without fraction and exponent is, if a word of 64 bits holds
it. -/
def nat? (n : Numeral) : Option Nat :=
  let value := natOfDigits n.whole
  if n.negative ∨ n.fraction ≠ [] ∨ n.exponent.isSome ∨ significandLimit < value then none
  else some value

/-- The natural number nearest to a double that is not negative; a half goes up. -/
def nearest (x : Float) : Nat := x.round.toUInt64.toNat

/-- The whole number from 0 to 100 nearest to what a numeral denotes; a half goes up. -/
def percentage? (n : Numeral) : Option Nat :=
  match n.nat? with
  | some value => some (min value 100)
  | none =>
    n.magnitude?.map fun x =>
      if n.negative then 0 else if 100 ≤ x then 100 else nearest x

end Concordance.Numeral
