import Concordance.Text.Basic

set_option autoImplicit false

/-!
# Terminal styles

Styled text stands between the codes that switch its styles on and the one that switches all styles
off. Where the text itself holds the latter, its styles are switched on again after each occurrence.
-/

namespace Concordance.Text

/-- Inserts a text after each occurrence of a needle; `left` characters of the last one found are
still to come. -/
def insertAfterFrom (needle extra : Text) : (left : Nat) → Text → Text
  | _, [] => []
  | left, c :: t =>
    let left := if left = 0 && startsWith needle (c :: t) then needle.length else left
    c :: if left = 1 then extra ++ insertAfterFrom needle extra 0 t
      else insertAfterFrom needle extra (left - 1) t

/-- Inserts a text after each occurrence of a needle. -/
def insertAfter (needle extra t : Text) : Text := insertAfterFrom needle extra 0 t

end Concordance.Text

namespace Concordance.Terminal

open Text

/-- A style of text. -/
inductive Style where
  | bold
  | dimmed
  | red
  | green
  | yellow
  | cyan
deriving DecidableEq

/-- The code that switches a style on. -/
def Style.code : Style → Text
  | bold => "1"
  | dimmed => "2"
  | red => "31"
  | green => "32"
  | yellow => "33"
  | cyan => "36"

/-- Switches styles on. -/
def opening (styles : List Style) : Text :=
  '\x1b' :: '[' :: joinWith ";" (styles.map Style.code) ++ ['m']

/-- Switches all styles off. -/
def reset : Text := ['\x1b', '[', '0', 'm']

/-- A text in the given styles, or as it is where there are no colors. -/
def paint (color : Bool) (styles : List Style) (t : Text) : Text :=
  if color then opening styles ++ insertAfter reset (opening styles) t ++ reset else t

end Concordance.Terminal
