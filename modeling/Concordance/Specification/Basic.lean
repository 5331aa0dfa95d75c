import Concordance.Dict
import Concordance.Specification.Name

set_option autoImplicit false

/-!
# Concept specifications

A concept specification names a concept and states its purpose, its state, the actions and queries
it offers, and the operational principle by which they work together. A specification may be
incomplete; its defects are listed by `Specification.defects`.
-/

namespace Concordance

/-- An action or a query that a specification declares. -/
structure Operation where
  name : Text
  /-- The declaring line. -/
  signature : Text
  /-- The declared type of each input. -/
  inputs : Dict Text
  /-- The alternative outcomes by label. -/
  outputs : Dict Text
  description : Text
  /-- The number of the declaring line, counted from one. -/
  line : Nat
deriving DecidableEq, Inhabited

/-- What a specification document says. -/
structure Specification where
  name : Text
  purpose : Text
  /-- The declared type of each field of each entity. -/
  state : Dict (Dict Text)
  actions : List Operation
  queries : List Operation
  principle : Text
  /-- The file that the document was read from. -/
  path : Text
deriving DecidableEq, Inhabited

namespace Specification

/-- The specification that says nothing. -/
def blank (path : Text) : Specification :=
  { name := [], purpose := [], state := .empty, actions := [], queries := [], principle := [],
    path := path }

/-- The first action of a name. -/
def action? (s : Specification) (name : Text) : Option Operation :=
  s.actions.find? fun a => a.name = name

/-- The first query of a name. -/
def query? (s : Specification) (name : Text) : Option Operation :=
  s.queries.find? fun q => q.name = name

/-- The name of the class that is expected to implement the concept. -/
def className (s : Specification) : Text := classNameOf s.name

end Specification

/-- What a specification can lack. -/
inductive SpecificationDefect where
  | noName
  | noPurpose
  | noState
  | noActions
  | unmarkedQuery (name : Text)
deriving DecidableEq

namespace SpecificationDefect

/-- The wording of a defect. -/
def message : SpecificationDefect → Text
  | noName => "Specification is missing a concept name"
  | noPurpose => "Specification is missing a purpose"
  | noState => "Specification declares no state"
  | noActions => "Specification declares no actions"
  | unmarkedQuery name => "Query '" ++ name ++ "' should start with '" ++ [queryMark] ++ "'"

end SpecificationDefect

/-- The defects of a specification, missing parts first. -/
def Specification.defects (s : Specification) : List SpecificationDefect :=
  (if (Text.trim s.name).isEmpty then [.noName] else []) ++
    (if (Text.trim s.purpose).isEmpty then [.noPurpose] else []) ++
    (if s.state.isEmpty then [.noState] else []) ++
    (if s.actions.isEmpty then [.noActions] else []) ++
    (s.queries.filter fun q => !isQueryName q.name).map fun q => .unmarkedQuery q.name

end Concordance
