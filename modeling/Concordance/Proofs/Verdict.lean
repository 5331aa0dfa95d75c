import Concordance.Proofs.Accounting

set_option autoImplicit false

/-!
# The exit code and the issues

The exit code of a run is read off the summaries of its reports, and a summary is made along with
the issues or, for a subject without a counterpart, changed after that. Reports are made in four
ways (`IsReportOn`). On each of them the counts of the summary are those of the issues (`Tallied`)
and the score is the one that is due to the subject (`Subject.dueScore`), so the exit code says
what the issues say.
-/

namespace Concordance

/-- Counts stop far above 100, so that a score is what it would be without a limit. -/
theorem score_eq_max (errors warnings infos : Nat) :
    (score errors warnings infos : Int) =
      max 0 (100 - 20 * (errors : Int) - 5 * (warnings : Int) - (infos : Int)) := by
  unfold score inByte penalty saturate countLimit
  omega

namespace Report

variable {r : Report}

/-- The issues of a severity. -/
def issuesOf (r : Report) (severity : Severity) : List Issue :=
  r.issues.filter fun i => i.severity = severity

/-- The summary counts the issues of each severity. -/
structure Tallied (r : Report) : Prop where
  errors : r.summary.errorCount = (r.issuesOf .error).length
  warnings : r.summary.warningCount = (r.issuesOf .warning).length
  infos : r.summary.infoCount = (r.issuesOf .info).length

/-- The issues of a severity are as many as are counted. -/
theorem length_issuesOf (r : Report) (severity : Severity) :
    (r.issuesOf severity).length = Summary.countOf severity r.issues :=
  List.countP_eq_length_filter.symm

/-- There is an issue of a severity just if their number is positive. -/
theorem length_issuesOf_pos_iff (severity : Severity) :
    0 < (r.issuesOf severity).length ↔ ∃ i ∈ r.issues, i.severity = severity := by
  simp [issuesOf, List.length_pos_iff_exists_mem]

/-- A report is tallied if its summary counts the issues of each severity. -/
theorem Tallied.of_countOf (herrors : r.summary.errorCount = Summary.countOf .error r.issues)
    (hwarnings : r.summary.warningCount = Summary.countOf .warning r.issues)
    (hinfos : r.summary.infoCount = Summary.countOf .info r.issues) : r.Tallied where
  errors := by rw [herrors, length_issuesOf]
  warnings := by rw [hwarnings, length_issuesOf]
  infos := by rw [hinfos, length_issuesOf]

/-- A report whose summary is made from its issues is tallied. -/
theorem Tallied.of_ofIssues (h : r.summary = .ofIssues r.issues) : r.Tallied :=
  .of_countOf (congrArg Summary.errorCount h) (congrArg Summary.warningCount h)
    (congrArg Summary.infoCount h)

/-- A tallied report has errors just if one of its issues is one. -/
theorem Tallied.hasErrors_iff (h : r.Tallied) :
    r.hasErrors = true ↔ ∃ i ∈ r.issues, i.severity = .error := by
  rw [hasErrors, decide_eq_true_iff, h.errors, length_issuesOf_pos_iff]

/-- A tallied report has warnings just if one of its issues is one. -/
theorem Tallied.hasWarnings_iff (h : r.Tallied) :
    r.hasWarnings = true ↔ ∃ i ∈ r.issues, i.severity = .warning := by
  rw [hasWarnings, decide_eq_true_iff, h.warnings, length_issuesOf_pos_iff]

end Report

namespace Run

/-- The score that is due to a report on a subject. -/
def Subject.dueScore (r : Report) : Subject → Int
  | pair _ _ =>
    max 0 (100 - 20 * ((r.issuesOf .error).length : Int) -
      5 * ((r.issuesOf .warning).length : Int) - ((r.issuesOf .info).length : Int))
  | specification _ => 0
  | implementation _ => 60

variable {patternFault : Text → Option Text} {related : List RelatedFile} {subject : Subject}
  {r : Report}

/-- Every report on a subject is tallied. -/
theorem IsReportOn.tallied (h : IsReportOn patternFault related subject r) : r.Tallied := by
  cases h with
  | comparison _ assessment => exact .of_ofIssues rfl
  | incomparable _ => exact .of_ofIssues rfl
  -- A score of its own leaves the counts as they are.
  | unimplemented s => exact .of_countOf rfl rfl rfl
  | unspecified d => exact .of_countOf rfl rfl rfl

/-- The score due to a pair is the one made from the issues. -/
theorem dueScore_pair {s : Specification} {d : SourceModule}
    (h : r.summary = .ofIssues r.issues) :
    (r.summary.score : Int) = Subject.dueScore r (.pair s d) := by
  have hscore : r.summary.score = score (r.issuesOf .error).length (r.issuesOf .warning).length
      (r.issuesOf .info).length := by
    rw [h, Report.length_issuesOf, Report.length_issuesOf, Report.length_issuesOf]
    rfl
  rw [hscore]
  exact score_eq_max _ _ _

/-- Every report has the score that is due to its subject. -/
theorem IsReportOn.score_eq (h : IsReportOn patternFault related subject r) :
    (r.summary.score : Int) = subject.dueScore r := by
  cases h with
  | comparison _ assessment => exact dueScore_pair rfl
  | incomparable _ => exact dueScore_pair rfl
  | unimplemented s => rfl
  | unspecified d => rfl

/-- The exit code is one just if there are errors, or if there are warnings and the run is
strict. -/
theorem exitCode_eq_one_iff (run : Run) (strict : Bool) :
    run.exitCode strict = 1 ↔
      run.hasErrors = true ∨ strict = true ∧ run.hasWarnings = true := by
  unfold exitCode
  split
  · next hcode => simpa using hcode
  · next hcode => simpa using hcode

/-- Where all reports are tallied, a run has errors or warnings just if some report has such an
issue. -/
theorem any_iff_of_tallied {run : Run} (h : ∀ r ∈ run.reports, r.Tallied) :
    (run.hasErrors = true ↔ ∃ r ∈ run.reports, ∃ i ∈ r.issues, i.severity = .error) ∧
    (run.hasWarnings = true ↔ ∃ r ∈ run.reports, ∃ i ∈ r.issues, i.severity = .warning) := by
  unfold hasErrors hasWarnings
  rw [List.any_eq_true, List.any_eq_true]
  constructor
  · exact exists_congr fun r => and_congr_right fun hr => (h r hr).hasErrors_iff
  · exact exists_congr fun r => and_congr_right fun hr => (h r hr).hasWarnings_iff

/-- In a run with any assessor over any scope, each report counts its issues and has the score that
is due to its subject; the exit code is 1 if some report holds an error or, where warnings count,
a warning, and 0 otherwise. -/
theorem exit_code_tells_of_issues {σ : Type} (assessor : Assessor (StateM σ)) (memory : σ)
    (tree : FileTree) (scope : Scope) (run : Run)
    (hrun : ((ofTree assessor tree scope).run memory).1 = .ok run) :
    (∃ specs modules,
      tree.specifications scope.specDirectory = .ok specs ∧
      tree.modules scope.implementationDirectory = .ok modules ∧
      List.Forall₂ (fun subject r => r.Tallied ∧ (r.summary.score : Int) = subject.dueScore r)
        (subjectsInScope scope specs modules) run.reports) ∧
    ∀ strict,
      (run.exitCode strict = 1 ↔
        (∃ r ∈ run.reports, ∃ i ∈ r.issues, i.severity = .error) ∨
          strict = true ∧ ∃ r ∈ run.reports, ∃ i ∈ r.issues, i.severity = .warning) ∧
      (run.exitCode strict = 0 ∨ run.exitCode strict = 1) := by
  obtain ⟨specs, modules, hspecs, hmodules, hreports, -⟩ := of_ofTree_eq_ok hrun
  have hdue := hreports.imp fun subject r hr => And.intro hr.tallied hr.score_eq
  have htallied : ∀ r ∈ run.reports, r.Tallied :=
    forall_mem_of_forall₂ (fun _ _ hr => hr.tallied) hreports
  obtain ⟨herrors, hwarnings⟩ := any_iff_of_tallied htallied
  refine ⟨⟨specs, modules, hspecs, hmodules, hdue⟩, fun strict => ⟨?_, ?_⟩⟩
  · rw [exitCode_eq_one_iff, herrors, hwarnings]
  · unfold exitCode
    split
    · exact Or.inr rfl
    · exact Or.inl rfl

/-- A service that is never there, and counts how often it was asked. -/
def absentService : Assessor (StateM Nat) :=
  .service fun _ => do
    modify (· + 1)
    pure none

/-- The small project has an error, and so its run fails. -/
theorem small_project_fails :
    ∃ run, ((ofTree absentService smallProject smallScope).run 0).1 = .ok run ∧
      run.exitCode false = 1 ∧
      (∃ specs modules,
        smallProject.specifications "specs" = .ok specs ∧
        smallProject.modules "concepts" = .ok modules ∧
        List.Forall₂ (fun subject r => r.Tallied ∧ (r.summary.score : Int) = subject.dueScore r)
          (subjectsInScope smallScope specs modules) run.reports) ∧
      ∃ r ∈ run.reports, ∃ i ∈ r.issues, i.severity = .error := by
  have hcode : ((ofTree absentService smallProject smallScope).run 0).1.toOption.map
      (fun run => run.exitCode false) = some 1 := by
    simp only [ofTree, FileTree.specifications, FileTree.modules, FileTree.list_eq_insertionSort]
    decide +kernel
  cases hrun : ((ofTree absentService smallProject smallScope).run 0).1 with
  | error e =>
    rw [hrun] at hcode
    cases hcode
  | ok run =>
    rw [hrun] at hcode
    have hone : run.exitCode false = 1 := Option.some.inj hcode
    obtain ⟨hreports, hexit⟩ :=
      exit_code_tells_of_issues absentService 0 smallProject smallScope run hrun
    have hissue := (hexit false).1.mp hone
    refine ⟨run, rfl, hone, ?_, ?_⟩
    · exact hreports
    · exact hissue.resolve_right (by simp)

end Run

end Concordance
