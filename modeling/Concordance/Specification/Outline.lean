import Concordance.Specification.Heading
import Concordance.Text.Blank

set_option autoImplicit false

/-!
# Outlines

The outline of a specification document is its sequence of blocks: a title, or a part with the
lines written under its heading. Blank lines and comments belong to no block. Only the first title
counts; a later line of that form is ordinary text.
-/

namespace Concordance

/-- A line of a document with its number. -/
structure Line where
  number : Nat
  text : Text
deriving DecidableEq

/-- A line that is neither blank nor a comment. -/
inductive Mark where
  | heading (heading : Heading) (number : Nat)
  | body (line : Line)
deriving DecidableEq

/-- A piece of an outline. -/
inductive Block where
  | title (name : Text)
  | content (part : Part) (lines : List Line)
deriving DecidableEq

namespace Outline

open Text

/-- Whether a trimmed line is a comment. -/
def isComment (line : Text) : Bool := startsWith "#" line || startsWith "//" line

/-- The heading that a trimmed line is in a document that has its title already, or not yet. -/
def heading? (titled : Bool) (line : Text) : Option Heading :=
  (Heading.parse? line).filter fun h => !(titled && h.isTitle)

/-- The marked lines of a document. -/
def marks : (titled : Bool) → List Line → List Mark
  | _, [] => []
  | titled, line :: rest =>
    let text := trim line.text
    if text.isEmpty then marks titled rest
    else match heading? titled text with
      | some h => .heading h line.number :: marks (titled || h.isTitle) rest
      | none =>
        if isComment text then marks titled rest else .body line :: marks titled rest

/-- The lines before the next heading. -/
def bodyLines : List Mark → List Line
  | .body line :: rest => line :: bodyLines rest
  | _ => []

/-- The blocks that the headings open; a line before the first of them, or between a title and the
next heading, is in none. -/
def blocks : List Mark → List Block
  | [] => []
  | .heading (.title name) _ :: rest => .title name :: blocks rest
  | .heading (.opens part inlined) number :: rest =>
    .content part ((inlined.map (Line.mk number)).toList ++ bodyLines rest) :: blocks rest
  | .body _ :: rest => blocks rest

/-- The numbered lines of a document. -/
def numbered (document : Text) : List Line :=
  (numberFrom 1 (lines document)).map fun l => ⟨l.1, l.2⟩

/-- The outline of a document. -/
def ofText (document : Text) : List Block := blocks (marks false (numbered document))

end Outline

end Concordance
