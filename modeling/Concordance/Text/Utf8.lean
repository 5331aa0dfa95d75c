import Concordance.Text.Basic

set_option autoImplicit false

/-!
# Texts in bytes

The size of a text in the encoding with eight-bit units, and the cut of a text to a number of bytes.
A cut is made at a boundary of characters only: where the limit falls inside of a character, the cut
goes back to where the character begins.
-/

namespace Concordance.Text

/-- The number of bytes of a text. -/
def byteSize (t : Text) : Nat := t.foldl (fun size c => size + c.utf8Size) 0

/-- Whether a number of bytes of a text is taken up by whole characters. -/
def isByteBoundary : Text → (bytes : Nat) → Bool
  | _, 0 => true
  | [], _ + 1 => false
  | c :: t, n + 1 => c.utf8Size ≤ n + 1 && isByteBoundary t (n + 1 - c.utf8Size)

/-- The last boundary at or before a number of bytes. The search goes back byte by byte, and fails
if it comes to zero without a boundary. -/
def boundaryUpTo? (t : Text) : (bytes : Nat) → Option Nat
  | 0 => if isByteBoundary t 0 then some 0 else none
  | n + 1 => if isByteBoundary t (n + 1) then some (n + 1) else boundaryUpTo? t n

/-- The characters of a text up to a boundary. -/
def takeBytes : (bytes : Nat) → Text → Text
  | 0, _ => []
  | _ + 1, [] => []
  | n + 1, c :: t => c :: takeBytes (n + 1 - c.utf8Size) t

/-- A text that takes at most `limit` bytes, and of any other the characters up to the last boundary
within them. -/
def truncate (limit : Nat) (t : Text) : Text :=
  if byteSize t ≤ limit then t else takeBytes ((boundaryUpTo? t limit).getD 0) t

end Concordance.Text
