import Concordance.Text.Basic

set_option autoImplicit false

/-!
# Blanks, words and lines

A blank is a character with the White_Space property. Trimming, splitting into words and the
recognisers of source declarations all use this one class. Lines end at a line feed; a carriage
return directly before it belongs to the line end, and one anywhere else is an ordinary blank.
-/

namespace Concordance.Text

/-- The characters with the White_Space property. -/
def isBlank (c : Char) : Bool :=
  let n := c.toNat
  (0x9 ≤ n && n ≤ 0xD) || n == 0x20 || n == 0x85 || n == 0xA0 || n == 0x1680 ||
    (0x2000 ≤ n && n ≤ 0x200A) || n == 0x2028 || n == 0x2029 || n == 0x202F || n == 0x205F ||
    n == 0x3000

/-- Drops leading blanks. -/
def trimStart (t : Text) : Text := trimStartOf isBlank t

/-- Drops trailing blanks. -/
def trimEnd (t : Text) : Text := trimEndOf isBlank t

/-- Drops leading and trailing blanks. -/
def trim (t : Text) : Text := trimEnd (trimStart t)

/-- Whether a text holds nothing but blanks. -/
def isBlankText (t : Text) : Bool := t.all isBlank

/-- The maximal runs of characters that are not blank. -/
def words (t : Text) : List Text := (t.splitOnP isBlank).filter fun w => !w.isEmpty

/-- Drops the carriage return that belongs to a line end. -/
def chopReturn (line : Text) : Text := (before? ['\r'] line).getD line

/-- The lines among the pieces between line feeds: the last piece is a line only if it is not
empty, and only a piece with a line feed after it loses its carriage return. -/
def closeLines : List Text → List Text
  | [] => []
  | [last] => if last.isEmpty then [] else [last]
  | line :: next :: rest => chopReturn line :: closeLines (next :: rest)

/-- The lines of a text. -/
def lines (t : Text) : List Text := closeLines (t.splitOn '\n')

/-- Pairs the members of a list with their positions, the first of which is `start`. -/
def numberFrom {α : Type} : (start : Nat) → List α → List (Nat × α)
  | _, [] => []
  | n, a :: rest => (n, a) :: numberFrom (n + 1) rest

end Concordance.Text
