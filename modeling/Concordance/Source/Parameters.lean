import Concordance.Source.Basic
import Concordance.Text.Blank
import Concordance.Text.Bracket

set_option autoImplicit false

/-!
# Parameter lists

A parameter list is either flat, `a: A, b?: B = x`, or a single object pattern. Such a pattern
is read by the fields of its type, `{ a, b }: { a: A; b?: B }`, or by the names it binds if it has
no type.
-/

namespace Concordance.Parameters

open Text

/-- The trimmed texts before and after the first colon outside of brackets. -/
def annotation (t : Text) : Text × Option Text :=
  match cutTop ':' t with
  | some (name, type) => (trim name, some (trim type))
  | none => (trim t, none)

/-- Whether a name carries the mark of something optional. -/
def isOptional (name : Text) : Bool := endsWith "?" name

/-- A name without that mark. -/
def withoutOptional (name : Text) : Text := trimEndOf (· = '?') name

/-- The parts that are not blank, trimmed. -/
def trimmedParts (parts : List Text) : List Text := (parts.map trim).filter fun p => !p.isEmpty

/-- A field of an object type. -/
def field (t : Text) : Parameter :=
  let (name, type) := annotation t
  { name := withoutOptional name, type := type.getD [], optional := isOptional name }

/-- The fields of an object type, which end at semicolons or commas. -/
def fields (type : Text) : List Parameter :=
  let inner := ((after? "\x7b" (trim type)).bind (before? "\x7d")).getD type
  (trimmedParts ((inner.splitOn ';').flatMap (splitTop ','))).map field

/-- A name that an object pattern binds, optional if it has a default. -/
def binding (t : Text) : Parameter :=
  match cutAt '=' t with
  | some (name, _) => { name := trim name, type := [], optional := true }
  | none => { name := t, type := [], optional := false }

/-- The names that an object pattern binds. -/
def bindings (pattern : Text) : List Parameter :=
  let inner := trimEndOf (· = '\x7d') (trimStartOf (· = '\x7b') (trim pattern))
  (trimmedParts (splitTop ',' inner)).map binding

/-- A parameter of a flat list, optional if it is marked or has a default. -/
def flat (t : Text) : Parameter :=
  let (declared, defaulted) :=
    match cutAt '=' t with
    | some (declared, _) => (trim declared, true)
    | none => (t, false)
  let (name, type) := annotation declared
  { name := trim (withoutOptional name), type := trim (type.getD []),
    optional := isOptional name || defaulted }

/-- The parameters that the only part of a list stands for, if it is an object pattern. -/
def aggregate? (list : Text) : Option (List Parameter) :=
  let (pattern, type) := annotation list
  let type := type.getD []
  if startsWith "\x7b" type then some (fields type)
  else if startsWith "\x7b" pattern then some (bindings pattern)
  else none

/-- The parameters that a list declares. A comma may end it. -/
def parse (list : Text) : List Parameter :=
  let list := trim (trimEndOf (· = ',') (trim list))
  if list.isEmpty then []
  else
    let parts := splitTop ',' list
    ((if parts.length = 1 then aggregate? list else none)).getD ((trimmedParts parts).map flat)

end Concordance.Parameters
