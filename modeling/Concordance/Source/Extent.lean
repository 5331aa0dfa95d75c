import Concordance.Text.Blank

set_option autoImplicit false

/-!
# The extent of a method

A method's body is found by counting braces from its first line on. It opens on the first line
that leaves a brace open and ends on the line where all of them are closed again. A line that opens
and closes braces and ends with one is a method by itself. The balance of braces is an integer
without bound, not a number of 32 bits.
-/

namespace Concordance

/-- Which lines a method takes, counted from its first line. -/
structure Extent where
  /-- The line on which the body opens. -/
  opening : Nat
  /-- The last line. -/
  last : Nat
deriving DecidableEq

namespace Extent

open Text

/-- The opening braces of a line less its closing ones. -/
def braceBalance : Text → Int
  | [] => 0
  | c :: t => (if c = '\x7b' then 1 else if c = '\x7d' then -1 else 0) + braceBalance t

/-- How many more lines it takes to close the open braces; all lines if they stay open. -/
def linesToClose : (balance : Int) → List Text → Nat
  | _, [] => 0
  | balance, line :: rest =>
    if balance + braceBalance line ≤ 0 then 1
    else linesToClose (balance + braceBalance line) rest + 1

/-- Whether a line whose braces balance is a whole method. -/
def isWhole (line : Text) : Bool := endsWith "\x7d" (trimEnd line) && line.any (· = '\x7b')

/-- The extent of the method that begins on the first of the lines, or on the `before`-th line
before it with all braces closed since. A semicolon at the end of a line rules out a body. -/
def find? : (before : Nat) → List Text → Option Extent
  | _, [] => none
  | n, line :: rest =>
    let balance := braceBalance line
    if 0 < balance then some ⟨n, n + linesToClose balance rest⟩
    else if balance = 0 ∧ isWhole line then some ⟨n, n⟩
    else if balance < 0 ∨ endsWith ";" (trimEnd line) then none
    else find? (n + 1) rest

end Extent

end Concordance
