import Concordance.Text.Basic

set_option autoImplicit false

/-!
# Brackets

Round, curly, square and angle brackets nest. A bracket is closed by the first closing character
that brings the count of open ones back, whatever its shape: the shapes are not matched with each
other. A *top-level* occurrence of a separator is one outside of all brackets, that is, where as
many brackets have been closed as opened. Brackets are counted without bound: the counts are natural
numbers and integers here, where a program would keep them in 32 bits and go wrong on texts that
hold more than two thousand million brackets.
-/

namespace Concordance.Text

/-- The opening brackets. -/
def isOpening (c : Char) : Bool := c = '(' || c = '\x7b' || c = '[' || c = '<'

/-- The closing brackets. -/
def isClosing (c : Char) : Bool := c = ')' || c = '\x7d' || c = ']' || c = '>'

/-- The text up to the character that closes one bracket more than the `depth` brackets open
inside of it, and the text after that character. -/
def enclosedFrom (opens closes : Char → Bool) : (depth : Nat) → Text → Option (Text × Text)
  | _, [] => none
  | depth, c :: t =>
    if opens c then (enclosedFrom opens closes (depth + 1) t).map fun (a, b) => (c :: a, b)
    else if closes c then
      match depth with
      | 0 => some ([], t)
      | depth + 1 => (enclosedFrom opens closes depth t).map fun (a, b) => (c :: a, b)
    else (enclosedFrom opens closes depth t).map fun (a, b) => (c :: a, b)

/-- What an opening bracket just read encloses, and what follows the bracket that closes it. -/
def enclosed (t : Text) : Option (Text × Text) := enclosedFrom isOpening isClosing 0 t

/-- As `enclosed`, with parentheses as the only brackets. -/
def parenthesized (t : Text) : Option (Text × Text) := enclosedFrom (· = '(') (· = ')') 0 t

/-- Puts a character in front of the first of several parts. -/
def consFirst (c : Char) : List Text → List Text
  | [] => [[c]]
  | part :: parts => (c :: part) :: parts

/-- The parts of a text between top-level separators, where `depth` counts the brackets opened
less those closed so far. -/
def splitTopFrom (sep : Char) : (depth : Int) → Text → List Text
  | _, [] => [[]]
  | depth, c :: t =>
    if isOpening c then consFirst c (splitTopFrom sep (depth + 1) t)
    else if isClosing c then consFirst c (splitTopFrom sep (depth - 1) t)
    else if c = sep ∧ depth = 0 then [] :: splitTopFrom sep depth t
    else consFirst c (splitTopFrom sep depth t)

/-- The parts of a text between its top-level separators. -/
def splitTop (sep : Char) (t : Text) : List Text := splitTopFrom sep 0 t

/-- The text before and after the first top-level separator. -/
def cutTop (sep : Char) (t : Text) : Option (Text × Text) :=
  match splitTop sep t with
  | first :: _ :: _ => some (first, t.drop (first.length + 1))
  | _ => none

end Concordance.Text
