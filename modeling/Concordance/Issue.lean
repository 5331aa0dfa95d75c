import Concordance.Text.Basic

set_option autoImplicit false

/-!
# Issues

An issue is one finding of the checker. It belongs to exactly one category, has a severity, points
to a place, and may point to the line of the specification that it goes back to.
-/

namespace Concordance

/-- How grave an issue is. -/
inductive Severity where
  | info
  | warning
  | error
deriving DecidableEq, Inhabited

namespace Severity

/-- The severities, gravest first. -/
def descending : List Severity := [.error, .warning, .info]

/-- The name of a severity. -/
def name : Severity → Text
  | info => "info"
  | warning => "warning"
  | error => "error"

/-- The mark of a severity in listings. -/
def label : Severity → Text
  | info => "INFO"
  | warning => "WARN"
  | error => "ERROR"

end Severity

/-- What an issue is about. -/
inductive Category where
  | missingAction
  | missingQuery
  | signatureMismatch
  | returnTypeMismatch
  | missingErrorHandling
  | stateMismatch
  | namingConvention
  | purposeAlignment
  | operationalPrincipleViolation
  | syncAlignment
  | dependencyViolation
  | conceptIndependence
deriving DecidableEq, Inhabited

namespace Category

/-- Every category. -/
def all : List Category :=
  [.missingAction, .missingQuery, .signatureMismatch, .returnTypeMismatch, .missingErrorHandling,
    .stateMismatch, .namingConvention, .purposeAlignment, .operationalPrincipleViolation,
    .syncAlignment, .dependencyViolation, .conceptIndependence]

/-- The name of a category. -/
def name : Category → Text
  | missingAction => "missing_action"
  | missingQuery => "missing_query"
  | signatureMismatch => "signature_mismatch"
  | returnTypeMismatch => "return_type_mismatch"
  | missingErrorHandling => "missing_error_handling"
  | stateMismatch => "state_mismatch"
  | namingConvention => "naming_convention"
  | purposeAlignment => "purpose_alignment"
  | operationalPrincipleViolation => "operational_principle_violation"
  | syncAlignment => "sync_alignment"
  | dependencyViolation => "dependency_violation"
  | conceptIndependence => "concept_independence"

end Category

/-- A place in a file, or the file as a whole. -/
structure Location where
  file : Text
  line : Option Nat := none
  column : Option Nat := none
deriving DecidableEq, Inhabited

namespace Location

/-- The written form of a place: the file, the line if there is one, the column if both are. -/
def render (l : Location) : Text :=
  match l.line, l.column with
  | none, _ => l.file
  | some line, none => l.file ++ ":" ++ Text.ofNat line
  | some line, some column => l.file ++ ":" ++ Text.ofNat line ++ ":" ++ Text.ofNat column

end Location

/-- The other side of an issue. -/
structure Reference where
  file : Text
  line : Option Nat
  excerpt : Option Text
deriving DecidableEq, Inhabited

/-- A finding. -/
structure Issue where
  severity : Severity
  category : Category
  message : Text
  description : Text := []
  location : Location
  suggestion : Option Text := none
  related : Option Reference := none
deriving DecidableEq, Inhabited

end Concordance
