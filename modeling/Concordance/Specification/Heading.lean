import Concordance.Specification.Basic

set_option autoImplicit false

/-!
# Headings

A heading opens a part of a specification document or gives the concept's name. The parts are
opened by their names alone, in any letter case, with or without a colon, and also as the text of
a `#` heading. The purpose and the operational principle may start on their heading's line.
-/

namespace Concordance

/-- The parts of a specification document. -/
inductive Part where
  | purpose
  | state
  | actions
  | queries
  | principle
deriving DecidableEq

/-- What a heading line says. -/
inductive Heading where
  /-- The document is about the named concept. -/
  | title (name : Text)
  /-- A part begins, possibly with some text of its own on the same line. -/
  | opens (part : Part) (inlined : Option Text)
deriving DecidableEq

namespace Heading

open Text

/-- The part that a lower-case name stands for. -/
def part? (name : Text) : Option Part :=
  if name = "purpose" then some .purpose
  else if name = "state" then some .state
  else if name = "actions" then some .actions
  else if name = "queries" then some .queries
  else if name = "operational principle" ∨ name = "principle" then some .principle
  else none

/-- The name in what follows the word `concept`: it ends at a blank, a bracket or a colon. -/
def titleName (tail : Text) : Text :=
  (trim tail).takeWhile fun c => !(isBlank c || c = '[' || c = '<' || c = ':')

/-- The text on the line of a part's name, if a colon or a space ends the name. -/
def inlined? (name folded line : Text) : Option Text :=
  match after? name folded with
  | some (c :: _) =>
    if c = ':' ∨ c = ' ' then some (trim (trimStartOf (· = ':') (line.drop name.length))) else none
  | _ => none

/-- The heading that a trimmed line is, if it is one. -/
def parse? (line : Text) : Option Heading :=
  let text := trim (trimStartOf (· = '#') line)
  let folded := lower text
  if startsWith "concept " folded then
    let name := titleName (text.drop 8)
    if name.isEmpty then none else some (.title name)
  else match part? (trim (trimEndOf (· = ':') folded)) with
    | some part => some (.opens part none)
    | none =>
      if startsWith "#" line then none
      else match inlined? "purpose" folded text with
        | some inlined => some (.opens .purpose (some inlined))
        | none =>
          (inlined? "operational principle" folded text).map fun inlined =>
            .opens .principle (some inlined)

/-- Whether a heading names the concept. -/
def isTitle : Heading → Bool
  | .title _ => true
  | .opens _ _ => false

end Heading

end Concordance
