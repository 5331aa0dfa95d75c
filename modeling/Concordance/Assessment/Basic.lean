import Concordance.Issue
import Concordance.Text.Blank

set_option autoImplicit false

/-!
# Assessments

A language model may review a concept and its implementation. What it says is kept beside the
checker's own findings, and the issues it reports are added to them with a severity of the
checker's scale.
-/

namespace Concordance

/-- The severities that a reviewer uses. -/
inductive Gravity where
  | critical
  | major
  | minor
deriving DecidableEq, Inhabited

namespace Gravity

/-- The name of a reviewer's severity. -/
def name : Gravity → Text
  | critical => "critical"
  | major => "major"
  | minor => "minor"

/-- The reviewer's severity of a name. All unknown ones are minor. -/
def ofName (name : Text) : Gravity :=
  if name = "critical" then .critical else if name = "major" then .major else .minor

/-- The severity of the checker's scale. -/
def severity : Gravity → Severity
  | critical => .error
  | major => .warning
  | minor => .info

end Gravity

/-- An issue that a reviewer reports. -/
structure Remark where
  gravity : Gravity
  description : Text
  suggestion : Text
deriving DecidableEq, Inhabited

/-- What a reviewer says about a concept. -/
structure Assessment where
  alignment : Option Text := none
  /-- A score from 0 to 100. -/
  score : Option Nat := none
  purposeNote : Text := []
  qualityNote : Text := []
  issues : List Remark := []
  suggestions : List Text := []
deriving DecidableEq, Inhabited

namespace Assessment

/-- The note of an assessment that could not be had. -/
def unavailableNote : Text := "AI analysis unavailable"

/-- The assessment that stands for one that could not be had. -/
def unavailable : Assessment :=
  { purposeNote := unavailableNote, qualityNote := unavailableNote,
    suggestions := ["Enable AI analysis by providing an assessment API key"] }

/-- Whether an assessment could not be had. -/
def isUnavailable (a : Assessment) : Bool := a.purposeNote = unavailableNote

/-- An issue of a reviewer as an issue of the checker. -/
def issueOf (location : Location) (r : Remark) : Issue :=
  { severity := r.gravity.severity, category := .purposeAlignment, message := r.description,
    description := "Reported by the assessment service", location := location,
    suggestion := if r.suggestion.isEmpty then none else some r.suggestion }

/-- The issues of an assessment as issues of the checker. -/
def toIssues (a : Assessment) (location : Location) : List Issue :=
  a.issues.map (issueOf location)

end Assessment

/-- What a review may be narrowed to. -/
inductive Aspect where
  | purpose
  | actions
  | queries
  | state
  | independence
deriving DecidableEq, Inhabited

namespace Aspect

/-- Every aspect. -/
def all : List Aspect := [.purpose, .actions, .queries, .state, .independence]

/-- The name of an aspect. -/
def name : Aspect → Text
  | purpose => "purpose"
  | actions => "actions"
  | queries => "queries"
  | state => "state"
  | independence => "independence"

/-- The aspect of a name, in any letter case and with blanks around it. -/
def parse? (t : Text) : Option Aspect :=
  all.find? fun a => a.name.map Char.toLower = (Text.trim t).map Char.toLower

/-- What is said about a text that names no aspect. -/
def unknownMessage (t : Text) : Text :=
  "Unknown aspect '" ++ t ++
    "'. Use one of: purpose, actions, queries, state, independence"

end Aspect

end Concordance
