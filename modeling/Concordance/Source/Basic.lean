import Concordance.Specification.Name
import Concordance.Text.Alphabetic

set_option autoImplicit false

/-!
# Source modules

What the checker knows about a file that implements a concept: the type it exposes, the methods of
its class, what it imports, and the fields through which it reaches storage. All of this is read
off the text, without a compiler.
-/

namespace Concordance

/-- Size and branching of a method. -/
structure Complexity where
  lineCount : Nat
  /-- Branches of the control flow, the straight path included. -/
  branchCount : Nat
  /-- Awaited calls and calls through `this`. -/
  externalCallCount : Nat
deriving DecidableEq, Inhabited

/-- A parameter of a method. -/
structure Parameter where
  name : Text
  type : Text
  optional : Bool
deriving DecidableEq, Inhabited

/-- A method of a class. -/
structure Method where
  name : Text
  isAsync : Bool
  parameters : List Parameter
  returnType : Text
  /-- The lines from the signature to the closing brace. -/
  body : Text
  isQuery : Bool
  /-- The number of the first line, counted from one. -/
  line : Nat
  complexity : Complexity
deriving DecidableEq, Inhabited

/-- A file that implements a concept. -/
structure SourceModule where
  /-- The file's name without its extension. -/
  name : Text
  exposedType : Option Text
  methods : List Method
  imports : List Text
  /-- The imports that reach into another concept. -/
  dependencies : List Text
  /-- The fields that hold collections. -/
  persistenceFields : List Text
  path : Text
deriving DecidableEq, Inhabited

namespace SourceModule

/-- The first method of a name. -/
def method? (m : SourceModule) (name : Text) : Option Method :=
  m.methods.find? fun d => d.name = name

/-- The methods without the mark of a query. -/
def actions (m : SourceModule) : List Method := m.methods.filter fun d => !d.isQuery

/-- The methods with the mark of a query. -/
def queries (m : SourceModule) : List Method := m.methods.filter fun d => d.isQuery

end SourceModule

/-- The field that holds the database. -/
def persistenceHandle : Text := "db"

/-- A field as a method names it. -/
def memberAccess (field : Text) : Text := ("this." : Text) ++ field

/-- Whether a character continues the name of a member. -/
def continuesMember (c : Char) : Bool := Text.isAlphanumeric c || c = '_' || c = '$'

/-- Whether a text can end a member's name: it is empty or starts with another character. -/
def endsMember : Text → Bool
  | [] => true
  | c :: _ => !continuesMember c

/-- Looks for an occurrence of `member` that is not the beginning of a longer name. Occurrences
are taken from left to right without overlap, and `skip` characters belong to the last one. -/
def mentionsMemberFrom (member : Text) : (skip : Nat) → Text → Bool
  | _, [] => false
  | skip + 1, _ :: t => mentionsMemberFrom member skip t
  | 0, c :: t =>
    match Text.after? member (c :: t) with
    | some rest => endsMember rest || mentionsMemberFrom member (member.length - 1) t
    | none => mentionsMemberFrom member 0 t

/-- Whether a member occurs in a text under its full name. -/
def mentionsMember (member t : Text) : Bool := mentionsMemberFrom member 0 t

/-- Whether a method reaches storage, through the database or through a collection. -/
def SourceModule.touchesPersistence (m : SourceModule) (d : Method) : Bool :=
  mentionsMember (memberAccess persistenceHandle) d.body ||
    m.persistenceFields.any fun field => mentionsMember (memberAccess field) d.body

end Concordance
