import Concordance.Specification.Outline
import Concordance.Specification.Signature

set_option autoImplicit false

/-!
# Reading specifications

A specification is read block by block from the outline of its document. Reading never fails: a
line that says nothing in its part is passed over.
-/

namespace Concordance

namespace Specification

open Text

/-- The prose of a part: its lines, trimmed and joined by spaces. -/
def prose (lines : List Line) : Text :=
  joinWith " " ((lines.map fun l => trim l.text).filter fun t => !t.isEmpty)

/-- The state with one field more, or with a new type for it. -/
def addField (state : Dict (Dict Text)) (entity field type : Text) : Dict (Dict Text) :=
  state.insert entity (((state.get? entity).getD .empty).insert field type)

/-- The state with an entity, which keeps its fields if it is there already. -/
def addEntity (state : Dict (Dict Text)) (entity : Text) : Dict (Dict Text) :=
  state.insert entity ((state.get? entity).getD .empty)

/-- Reads the lines of a state part. A line with a colon is a field of the entity named last, or
of `owner` before any is named; any other line names an entity. -/
def readState (owner : Text) :
    (entity : Option Text) → Dict (Dict Text) → List Line → Dict (Dict Text)
  | _, state, [] => state
  | entity, state, line :: rest =>
    let text := trim (trimStartOf (· = '-') (trim line.text))
    if text.isEmpty then readState owner entity state rest
    else match cutAt ':' text with
      | none =>
        let name := trim (trimEndOf (· = '\x7b') text)
        readState owner (some name) (addEntity state name) rest
      | some (field, type) =>
        let holder := entity.getD owner
        readState owner (some holder) (addField state holder (trim field) (trim type)) rest

/-- The text after the dash of a description line. -/
def remark? (line : Line) : Option Text := (after? "-" (trim line.text)).map trim

/-- The description lines before the next line of another kind. -/
def remarks : List Line → List Text
  | [] => []
  | line :: rest =>
    match remark? line with
    | some r => r :: remarks rest
    | none => []

/-- Adds a remark to a description, after a space unless the description is still empty. -/
def addRemark (description remark : Text) : Text :=
  (if description.isEmpty then [] else description ++ [' ']) ++ remark

/-- The operations that the lines of a part declare, each with the remarks directly below it. -/
def readOperations : List Line → List Operation
  | [] => []
  | line :: rest =>
    match remark? line with
    | some _ => readOperations rest
    | none =>
      match Signature.parse? (trim line.text) line.number with
      | some op =>
        { op with description := (remarks rest).foldl addRemark [] } :: readOperations rest
      | none => readOperations rest

/-- The specification with a block added. Prose replaces what an earlier part of its kind said;
state, actions and queries add to it. -/
def addBlock (s : Specification) : Block → Specification
  | .title name => { s with name := name }
  | .content .purpose lines => { s with purpose := prose lines }
  | .content .principle lines => { s with principle := prose lines }
  | .content .state lines =>
    let owner := if s.name.isEmpty then ("State" : Text) else s.name
    { s with state := readState owner none s.state lines }
  | .content .actions lines => { s with actions := s.actions ++ readOperations lines }
  | .content .queries lines => { s with queries := s.queries ++ readOperations lines }

/-- The specification that a document holds. -/
def read (document path : Text) : Specification :=
  (Outline.ofText document).foldl addBlock (blank path)

end Specification

end Concordance
