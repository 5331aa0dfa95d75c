import Concordance.Proofs.Review
import Concordance.Proofs.Verdict

set_option autoImplicit false

/-!
# What issues cost

A score is worked out in steps that each stop at a limit: two products, two sums, a difference and
the byte that holds it. The limits lie so far above 100 that a step which reaches one leaves a score
of 0, which is what the exact sum leaves as well. So a score is what the issues cost taken off 100,
down to 0, and issues that come later are charged to what the earlier ones left.
-/

namespace Concordance

/-- What an issue of a severity costs. -/
def Severity.cost : Severity → Nat
  | error => 20
  | warning => 5
  | info => 1

/-- What issues cost together. -/
def costOf (issues : List Issue) : Nat :=
  20 * Summary.countOf .error issues + 5 * Summary.countOf .warning issues +
    Summary.countOf .info issues

/-- The score as one subtraction that stops at zero. -/
theorem score_eq_sub (errors warnings infos : Nat) :
    score errors warnings infos = 100 - (20 * errors + 5 * warnings + infos) := by
  have hexact := score_eq_max errors warnings infos
  omega

/-- The score of issues is what their cost leaves of a hundred. -/
theorem score_ofIssues (issues : List Issue) :
    (Summary.ofIssues issues).score = 100 - costOf issues :=
  score_eq_sub _ _ _

/-- Costs add up over issues. -/
@[simp, grind =] theorem costOf_append (issues more : List Issue) :
    costOf (issues ++ more) = costOf issues + costOf more := by
  unfold costOf Summary.countOf
  simp only [List.countP_append]
  omega

/-- A single issue costs what its severity does. -/
@[simp, grind =] theorem costOf_singleton (issue : Issue) :
    costOf [issue] = issue.severity.cost := by
  cases h : issue.severity with
  | info => simp [costOf, Summary.countOf, Severity.cost, h]
  | warning => simp [costOf, Summary.countOf, Severity.cost, h]
  | error => simp [costOf, Summary.countOf, Severity.cost, h]

/-- Later issues are charged to what the earlier ones left. -/
theorem score_ofIssues_append (issues more : List Issue) :
    (Summary.ofIssues (issues ++ more)).score = (Summary.ofIssues issues).score - costOf more := by
  rw [score_ofIssues, score_ofIssues]
  grind

/-- Whatever the counts are, a score is the exact difference or 0. It is at most 100, and more
issues of any severity do not raise it. One more issue takes off what it costs, or what is left. -/
theorem score_exact_and_charged_by_severity :
    (∀ errors warnings infos : Nat,
      (score errors warnings infos : Int) =
        max 0 (100 - 20 * (errors : Int) - 5 * (warnings : Int) - (infos : Int)) ∧
      score errors warnings infos ≤ 100) ∧
    (∀ warnings infos, Antitone fun errors => score errors warnings infos) ∧
    (∀ errors infos, Antitone fun warnings => score errors warnings infos) ∧
    (∀ errors warnings, Antitone fun infos => score errors warnings infos) ∧
    ∀ (issues : List Issue) (issue : Issue),
      (Summary.ofIssues (issues ++ [issue])).score =
        if issue.severity.cost ≤ (Summary.ofIssues issues).score then
          (Summary.ofIssues issues).score - issue.severity.cost
        else 0 := by
  refine ⟨fun errors warnings infos => ⟨score_eq_max errors warnings infos, ?_⟩, ?_, ?_, ?_, ?_⟩
  · rw [score_eq_sub]
    omega
  · exact fun warnings infos _ _ h => score_anti h le_rfl le_rfl
  · exact fun errors infos _ _ h => score_anti le_rfl h le_rfl
  · exact fun errors warnings _ _ h => score_anti le_rfl le_rfl h
  · intro issues issue
    grind [score_ofIssues_append]

end Concordance
