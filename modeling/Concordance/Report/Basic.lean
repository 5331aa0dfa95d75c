import Concordance.Assessment.Basic
import Concordance.Issue

set_option autoImplicit false

/-!
# Reports

A report holds what the checker found out about one concept, with the number of issues of each
severity and a score. A score is 100 less a penalty for each issue, and never below 0.
-/

namespace Concordance

/-- The largest number that a count takes. -/
def countLimit : Nat := 0xFFFFFFFFFFFFFFFF

/-- A count that stops at the limit. -/
def saturate (n : Nat) : Nat := min n countLimit

/-- What is taken off a perfect score: 20 for an error, 5 for a warning, 1 for a remark. -/
def penalty (errors warnings infos : Nat) : Nat :=
  saturate (saturate (saturate (errors * 20) + saturate (warnings * 5)) + infos)

/-- A number as a byte keeps it. -/
def inByte (n : Nat) : Nat := n % 0x100

/-- The score for the given numbers of issues. -/
def score (errors warnings infos : Nat) : Nat := inByte (100 - penalty errors warnings infos)

/-- The number of issues of each severity, and the score. -/
structure Summary where
  errorCount : Nat
  warningCount : Nat
  infoCount : Nat
  score : Nat
deriving DecidableEq, Inhabited

namespace Summary

/-- The number of issues of a severity. -/
def countOf (severity : Severity) (issues : List Issue) : Nat :=
  issues.countP fun i => i.severity = severity

/-- The summary of a list of issues. -/
def ofIssues (issues : List Issue) : Summary :=
  { errorCount := countOf .error issues, warningCount := countOf .warning issues,
    infoCount := countOf .info issues,
    score :=
      Concordance.score (countOf .error issues) (countOf .warning issues) (countOf .info issues) }

end Summary

/-- What was found out about one concept. -/
structure Report where
  conceptName : Text
  /-- The specification's file, empty if there is none. -/
  specFile : Text
  /-- The implementation's file, or a mark that there is none. -/
  implementationFile : Text
  relatedFiles : List Text
  issues : List Issue
  summary : Summary
  assessment : Option Assessment
deriving DecidableEq, Inhabited

namespace Report

/-- What stands for the implementation of a concept that has none. -/
def missingImplementation : Text := "MISSING"

/-- The report with the given issues, whose summary is theirs. -/
def ofIssues (conceptName specFile implementationFile : Text) (issues : List Issue) : Report :=
  { conceptName := conceptName, specFile := specFile, implementationFile := implementationFile,
    relatedFiles := [], issues := issues, summary := .ofIssues issues, assessment := none }

/-- The report with a score of its own, at most 100. -/
def withScore (r : Report) (score : Nat) : Report :=
  { r with summary := { r.summary with score := min score 100 } }

/-- Whether a report counts an error. -/
def hasErrors (r : Report) : Bool := 0 < r.summary.errorCount

/-- Whether a report counts a warning. -/
def hasWarnings (r : Report) : Bool := 0 < r.summary.warningCount

end Report

end Concordance
