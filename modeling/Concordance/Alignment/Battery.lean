import Concordance.Issue
import Concordance.Source.Convention
import Concordance.Specification.Basic

set_option autoImplicit false

/-!
# The battery of checks

A specification and a module are compared in four steps: defects of either, actions, queries, and
the name of the exposed type. A defect of a method that the specification declares is left to the
steps for actions and queries, and a reading method without its mark to the step for queries.
-/

namespace Concordance.Battery

open Text

/-- The place of a method. -/
def placeOf (m : SourceModule) (d : Method) : Location := { file := m.path, line := some d.line }

/-- The line of a specification that declares an operation. -/
def referenceTo (s : Specification) (o : Operation) : Option Reference :=
  some { file := s.path, line := some o.line, excerpt := some o.signature }

/-- Whether a specification declares an action or a query of a name, query marks aside. -/
def declares (s : Specification) (name : Text) : Bool :=
  (s.actions ++ s.queries).any fun o => unmarked o.name = unmarked name

/-! ### Defects -/

/-- A defect of the specification is an error. -/
def specificationIssue (s : Specification) (d : SpecificationDefect) : Issue :=
  { severity := .error
    category :=
      match d with
      | .unmarkedQuery _ => .namingConvention
      | _ => .stateMismatch
    message := d.message
    location := { file := s.path } }

/-- The place of the first method of a name, or else the module. -/
def placeNamed (m : SourceModule) (name : Text) : Location :=
  ((m.method? name).map (placeOf m)).getD { file := m.path }

/-- A module that depends on another concept. -/
def dependencyIssue (m : SourceModule) (path : Text) : Issue :=
  { severity := .warning, category := .dependencyViolation
    message := (ConventionDefect.dependency path).message
    description := "Concepts must not depend on each other; compose them with synchronizations"
    location := { file := m.path }
    suggestion :=
      some "Remove the import and pass the other concept's identifiers as opaque values" }

/-- A method that violates a convention. -/
def methodIssue (m : SourceModule) (category : Category) (d : ConventionDefect) (name : Text) :
    Issue :=
  { severity := .warning, category := category, message := d.message
    location := placeNamed m name }

/-- A defect of the module is a warning, unless a later step sees to it. -/
def moduleIssue? (s : Specification) (m : SourceModule) (d : ConventionDefect) : Option Issue :=
  if d.method?.any (declares s) then none
  else match d with
    | .dependency path => some (dependencyIssue m path)
    | .queryNaming _ => none
    | .missingFailureHandling name => some (methodIssue m .missingErrorHandling d name)
    | .syncPersistence name => some (methodIssue m .signatureMismatch d name)

/-- The issues of the first step. -/
def defectIssues (s : Specification) (m : SourceModule) : List Issue :=
  s.defects.map (specificationIssue s) ++ m.defects.filterMap (moduleIssue? s m)

/-! ### Actions -/

/-- A declared action without a method of its name. -/
def missingAction (s : Specification) (m : SourceModule) (a : Operation) : Issue :=
  { severity := .error, category := .missingAction
    message := "Action '" ++ a.name ++ "' is specified but not implemented"
    description :=
      s.name ++ " declares action '" ++ a.name ++ "' but " ++ s.className ++
        " has no method with that name"
    location := { file := m.path }
    suggestion := some ("Add an async '" ++ a.name ++ "' method to " ++ s.className)
    related := referenceTo s a }

/-- A declared action whose method has no error result. -/
def noErrorOutcome (s : Specification) (m : SourceModule) (a : Operation) (d : Method) : Issue :=
  { severity := .warning, category := .missingErrorHandling
    message := "Action '" ++ a.name ++ "' has no error outcome"
    description := "Actions report failure as an alternative output shape"
    location := placeOf m d
    suggestion := some "Return \x7b error: string \x7d when the action cannot complete"
    related := referenceTo s a }

/-- A declared action that reaches storage synchronously. -/
def notAsync (m : SourceModule) (a : Operation) (d : Method) : Issue :=
  { severity := .info, category := .signatureMismatch
    message := "Action '" ++ a.name ++ "' accesses the database but is not async"
    location := placeOf m d
    suggestion := some ("Declare '" ++ a.name ++ "' as async") }

/-- The issues of a declared action. -/
def actionIssues (s : Specification) (m : SourceModule) (a : Operation) : List Issue :=
  match m.actions.find? fun d => d.name = a.name with
  | none => [missingAction s m a]
  | some d =>
    (if d.hasErrorResult then [] else [noErrorOutcome s m a d]) ++
      (if !d.isAsync && m.touchesPersistence d then [notAsync m a d] else [])

/-- Whether a method is an action or, but for its mark, a query of the specification. -/
def isSpecified (s : Specification) (d : Method) : Bool :=
  (s.action? d.name).isSome || s.queries.any fun q => unmarked q.name = d.name

/-- An action that the specification does not declare. -/
def unspecifiedAction (m : SourceModule) (d : Method) : Issue :=
  { severity := .warning, category := .signatureMismatch
    message := "Unspecified action '" ++ d.name ++ "'"
    description :=
      m.name ++ " implements '" ++ d.name ++ "' but the specification does not declare it"
    location := placeOf m d
    suggestion := some "Add the action to the specification or remove it" }

/-- The issues of the second step. -/
def allActionIssues (s : Specification) (m : SourceModule) : List Issue :=
  s.actions.flatMap (actionIssues s m) ++
    (m.actions.filter fun d => !isSpecified s d).map (unspecifiedAction m)

/-! ### Queries -/

/-- The method that implements a query: the marked one of its name, or else the first whose name
agrees, query marks aside. -/
def implementing? (m : SourceModule) (q : Operation) : Option Method :=
  (m.queries.find? fun d => d.name = q.name).or
    (m.methods.find? fun d => unmarked d.name = unmarked q.name)

/-- A declared query without a method. -/
def missingQuery (s : Specification) (m : SourceModule) (q : Operation) : Issue :=
  { severity := .error, category := .missingQuery
    message := "Query '" ++ q.name ++ "' is specified but not implemented"
    location := { file := m.path }
    suggestion :=
      some ("Add a '" ++ [queryMark] ++ unmarked q.name ++ "' method returning an array")
    related := referenceTo s q }

/-- A declared query that does not return a sequence. -/
def notSequence (s : Specification) (m : SourceModule) (q : Operation) (d : Method) : Issue :=
  { severity := .error, category := .returnTypeMismatch
    message := "Query '" ++ d.name ++ "' must return an array"
    description := "Return type '" ++ d.returnType ++ "' does not describe a sequence"
    location := placeOf m d
    suggestion := some "Return an array of results, empty when nothing matches"
    related := referenceTo s q }

/-- A method that reads and is not marked. -/
def namingError (m : SourceModule) (d : Method) : Issue :=
  { severity := .error, category := .namingConvention
    message := "Query method '" ++ d.name ++ "' should start with '" ++ [queryMark] ++ "'"
    location := placeOf m d
    suggestion := some ("Rename to '" ++ [queryMark] ++ d.name ++ "'") }

/-- The issues of a declared query. Query-shaped names are seen to by `allQueryIssues`. -/
def queryIssues (s : Specification) (m : SourceModule) (q : Operation) : List Issue :=
  match implementing? m q with
  | none => [missingQuery s m q]
  | some d =>
    (if isSequenceType d.returnType then [] else [notSequence s m q d]) ++
      (if !isQueryName d.name && !isQueryShaped d.name then [namingError m d] else [])

/-- The issues of the third step. -/
def allQueryIssues (s : Specification) (m : SourceModule) : List Issue :=
  s.queries.flatMap (queryIssues s m) ++
    (m.actions.filter fun d => isQueryShaped d.name).map (namingError m)

/-! ### The exposed type -/

/-- A module whose exposed type is not named for the concept. -/
def misnamedType (s : Specification) (m : SourceModule) (message : Text) : Issue :=
  { severity := .warning, category := .namingConvention, message := message
    location := { file := m.path }
    suggestion := some ("export default class " ++ s.className) }

/-- The issues of the fourth step. -/
def typeIssues (s : Specification) (m : SourceModule) : List Issue :=
  match m.exposedType with
  | none => [misnamedType s m ("No exported type found; expected '" ++ s.className ++ "'")]
  | some type =>
    if type = s.className then []
    else
      [misnamedType s m ("Type '" ++ type ++ "' should be named '" ++ s.className ++ "'")]

/-- The issues of a specification and its module. -/
def compare (s : Specification) (m : SourceModule) : List Issue :=
  defectIssues s m ++ allActionIssues s m ++ allQueryIssues s m ++ typeIssues s m

end Concordance.Battery
