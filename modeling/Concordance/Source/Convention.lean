import Concordance.Source.Basic

set_option autoImplicit false

/-!
# Conventions of source modules

A concept does not import other concepts. A method that reads is marked as a query. An action
returns an error or deals with failure in some visible way, and is asynchronous if it reaches
storage. The defects of a module are its violations of these conventions.
-/

namespace Concordance

open Text

/-- The verbs that a reading method's name begins with. -/
def readingVerbs : List Text :=
  ["get", "find", "list", "fetch", "search", "count", "lookup", "query"]

/-- Whether a text can follow a verb in a name: it is empty or begins a new word. -/
def beginsWord : Text → Bool
  | [] => true
  | c :: _ => c.isUpper || c.isDigit || c = '_'

/-- Whether a name, query marks aside, begins with a reading verb. -/
def isQueryShaped (name : Text) : Bool :=
  readingVerbs.any fun verb => ((after? verb (unmarked name)).map beginsWord).getD false

/-- Whether a text has the word among its maximal runs of alphanumerics and underscores. -/
def containsWord (word t : Text) : Bool :=
  (t.splitOnP fun c => !(isAlphanumeric c || c = '_')).any fun w => w = word

/-- Whether a type is visibly one of sequences. -/
def isSequenceType (type : Text) : Bool := contains "[]" type || contains "Array<" type

namespace Method

/-- Whether the return type or the body mentions an error. -/
def hasErrorResult (d : Method) : Bool :=
  containsWord "error" d.returnType || containsWord "error" d.body

/-- The texts by which a body shows that it deals with failure. -/
def failureTokens : List Text := ["throw", "catch", "reject", "Error("]

/-- Whether a method has an error result or deals with failure. -/
def handlesFailure (d : Method) : Bool :=
  d.hasErrorResult || failureTokens.any fun token => contains token d.body

end Method

/-- A violation of a convention. -/
inductive ConventionDefect where
  | dependency (path : Text)
  | queryNaming (method : Text)
  | missingFailureHandling (method : Text)
  | syncPersistence (method : Text)
deriving DecidableEq

namespace ConventionDefect

/-- The method that a defect is about. -/
def method? : ConventionDefect → Option Text
  | dependency _ => none
  | queryNaming method => some method
  | missingFailureHandling method => some method
  | syncPersistence method => some method

/-- The wording of a defect. -/
def message : ConventionDefect → Text
  | dependency path => "Concept imports another concept: " ++ path
  | queryNaming method =>
    "Query method '" ++ method ++ "' should start with '" ++ [queryMark] ++ "' (rename to '" ++
      [queryMark] ++ method ++ "')"
  | missingFailureHandling method =>
    "Action '" ++ method ++ "' neither returns an error result nor handles failure"
  | syncPersistence method => "Action '" ++ method ++ "' accesses the database but is not async"

end ConventionDefect

namespace SourceModule

/-- The defects of one method. A reading method that is not marked has that one defect only. -/
def methodDefects (m : SourceModule) (d : Method) : List ConventionDefect :=
  if d.isQuery then []
  else if isQueryShaped d.name then [.queryNaming d.name]
  else
    (if d.handlesFailure then [] else [.missingFailureHandling d.name]) ++
      (if !d.isAsync && m.touchesPersistence d then [.syncPersistence d.name] else [])

/-- The defects of a module: its dependencies, then those of its methods in order. -/
def defects (m : SourceModule) : List ConventionDefect :=
  m.dependencies.map .dependency ++ m.methods.flatMap m.methodDefects

end SourceModule

end Concordance
