import Concordance.Report.Basic

set_option autoImplicit false

/-!
# Groups of issues

Listings show the issues of a report by severity, gravest first, and a score by its grade.
-/

namespace Concordance

/-- The issues of one severity. -/
structure IssueGroup where
  severity : Severity
  issues : List Issue
deriving DecidableEq

/-- The heading of a group. -/
def Severity.title : Severity → Text
  | error => "Errors"
  | warning => "Warnings"
  | info => "Info"

/-- The issues of a report by severity, gravest first and in their order. Groups without issues
are left out. -/
def Report.groups (r : Report) : List IssueGroup :=
  (Severity.descending.map fun s => ⟨s, r.issues.filter fun i => i.severity = s⟩).filter
    fun g => !g.issues.isEmpty

/-- How good a score is. -/
inductive Grade where
  | good
  | fair
  | poor
deriving DecidableEq

namespace Grade

/-- The grade of a score. -/
def ofScore (score : Nat) : Grade :=
  if 90 ≤ score then .good else if 60 ≤ score then .fair else .poor

/-- The name of a grade. -/
def name : Grade → Text
  | good => "good"
  | fair => "fair"
  | poor => "poor"

end Grade

/-- A score as a part of the best one. -/
def scoreText (score : Nat) : Text := Text.ofNat score ++ "/100"

end Concordance
