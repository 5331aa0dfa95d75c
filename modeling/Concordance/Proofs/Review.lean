import Concordance.Proofs.Accounting

set_option autoImplicit false

/-!
# A review only adds

A run with a completion service is compared with the run without one, on the same tree and scope.
Both report on the same subjects in the same order. The service is shown the pairs that can be
compared, one prompt each (`promptOn`), and its answer enters the report on that pair alone: the
remarks come after what the battery found. More issues lower a score and raise no count downwards,
so a review never makes a report look better. A service that fails leaves the issues as they were.
-/

namespace Concordance

/-! ## Counts and scores -/

/-- More issues of any severity are no smaller a penalty. -/
theorem penalty_mono {e e' w w' n n' : Nat} (he : e ≤ e') (hw : w ≤ w') (hn : n ≤ n') :
    penalty e w n ≤ penalty e' w' n' := by
  unfold penalty saturate
  omega

/-- More issues of any severity are no higher a score. -/
theorem score_anti {e e' w w' n n' : Nat} (he : e ≤ e') (hw : w ≤ w') (hn : n ≤ n') :
    score e' w' n' ≤ score e w n := by
  have hpenalty := penalty_mono he hw hn
  unfold score inByte
  omega

/-- Further issues do not lower a count. -/
theorem Summary.countOf_le_append (severity : Severity) (issues more : List Issue) :
    countOf severity issues ≤ countOf severity (issues ++ more) := by
  unfold countOf
  rw [List.countP_append]
  exact Nat.le_add_right _ _

/-! ## Reports with remarks -/

/-- The remarks of a report's assessment, as issues with the implementation. -/
def Report.remarks (r : Report) : List Issue :=
  r.assessment.elim [] fun a => a.toIssues { file := r.implementationFile }

/-- One report differs from another only by an assessment, the remarks of which come last. -/
structure AddsRemarks (plain reviewed : Report) : Prop where
  conceptName : reviewed.conceptName = plain.conceptName
  specFile : reviewed.specFile = plain.specFile
  implementationFile : reviewed.implementationFile = plain.implementationFile
  relatedFiles : reviewed.relatedFiles = plain.relatedFiles
  issues : reviewed.issues = plain.issues ++ reviewed.remarks
  errorCount : plain.summary.errorCount ≤ reviewed.summary.errorCount
  warningCount : plain.summary.warningCount ≤ reviewed.summary.warningCount
  infoCount : plain.summary.infoCount ≤ reviewed.summary.infoCount
  score : reviewed.summary.score ≤ plain.summary.score

/-- A report without an assessment adds no remarks to itself. -/
theorem AddsRemarks.refl {r : Report} (h : r.assessment = none) : AddsRemarks r r where
  conceptName := rfl
  specFile := rfl
  implementationFile := rfl
  relatedFiles := rfl
  issues := by
    unfold Report.remarks
    rw [h]
    exact (List.append_nil _).symm
  errorCount := Nat.le_refl _
  warningCount := Nat.le_refl _
  infoCount := Nat.le_refl _
  score := Nat.le_refl _

/-- Where both summaries are those of the issues, more issues are all it takes. -/
theorem AddsRemarks.of_issues {plain reviewed : Report}
    (hname : reviewed.conceptName = plain.conceptName) (hspec : reviewed.specFile = plain.specFile)
    (himpl : reviewed.implementationFile = plain.implementationFile)
    (hrelated : reviewed.relatedFiles = plain.relatedFiles)
    (hissues : reviewed.issues = plain.issues ++ reviewed.remarks)
    (hplain : plain.summary = .ofIssues plain.issues)
    (hreviewed : reviewed.summary = .ofIssues reviewed.issues) : AddsRemarks plain reviewed := by
  have hcount : ∀ severity, Summary.countOf severity plain.issues ≤
      Summary.countOf severity reviewed.issues := by
    intro severity
    rw [hissues]
    exact Summary.countOf_le_append severity _ _
  refine ⟨hname, hspec, himpl, hrelated, hissues, ?_, ?_, ?_, ?_⟩ <;> rw [hplain, hreviewed]
  · exact hcount .error
  · exact hcount .warning
  · exact hcount .info
  · exact score_anti (hcount .error) (hcount .warning) (hcount .info)

namespace Run

variable {patternFault : Text → Option Text} {related : List RelatedFile}

/-- The issues of a comparison are those found by it and then the remarks of the assessment. -/
theorem issues_comparison (files : List RelatedFile) (s : Specification) (d : SourceModule)
    (assessment : Option Assessment) :
    (comparison files s d assessment).issues =
      Battery.compare s d ++ (comparison files s d assessment).remarks := rfl

/-- The summary of a comparison is made from all its issues. -/
theorem summary_comparison (files : List RelatedFile) (s : Specification) (d : SourceModule)
    (assessment : Option Assessment) :
    (comparison files s d assessment).summary =
      .ofIssues (comparison files s d assessment).issues := rfl

/-- The assessment has no part in what a comparison is about. -/
theorem comparison_about (files : List RelatedFile) (s : Specification) (d : SourceModule)
    (assessment : Option Assessment) :
    (comparison files s d assessment).conceptName = s.name ∧
      (comparison files s d assessment).specFile = s.path ∧
      (comparison files s d assessment).implementationFile = d.path ∧
      (comparison files s d assessment).relatedFiles = files.map RelatedFile.path :=
  ⟨rfl, rfl, rfl, rfl⟩

/-- A comparison with an assessment adds its remarks to the one without. -/
theorem addsRemarks_comparison (files : List RelatedFile) (s : Specification) (d : SourceModule)
    (assessment : Option Assessment) :
    AddsRemarks (comparison files s d none) (comparison files s d assessment) := by
  obtain ⟨hname, hspec, himpl, hrelated⟩ := comparison_about files s d none
  obtain ⟨hname', hspec', himpl', hrelated'⟩ := comparison_about files s d assessment
  have hplain : (comparison files s d none).issues = Battery.compare s d :=
    (issues_comparison files s d none).trans (List.append_nil _)
  refine .of_issues (hname'.trans hname.symm) (hspec'.trans hspec.symm) (himpl'.trans himpl.symm)
    (hrelated'.trans hrelated.symm) ?_ (summary_comparison files s d none)
    (summary_comparison files s d assessment)
  rw [hplain]
  exact issues_comparison files s d assessment

/-- An assessment without remarks changes neither the issues nor the summary. -/
theorem comparison_of_no_remarks (files : List RelatedFile) (s : Specification) (d : SourceModule)
    {a : Assessment} (h : a.issues = []) :
    (comparison files s d (some a)).issues = (comparison files s d none).issues ∧
      (comparison files s d (some a)).summary = (comparison files s d none).summary := by
  have hremarks : (comparison files s d (some a)).remarks = [] := by
    change a.issues.map _ = []
    rw [h, List.map_nil]
  have hissues : (comparison files s d (some a)).issues = (comparison files s d none).issues := by
    rw [issues_comparison, issues_comparison, hremarks]
    rfl
  exact ⟨hissues, by rw [summary_comparison, summary_comparison, hissues]⟩

/-! ## Reports of the two runs -/

/-- The prompt that a service gets for the report on a subject, if it gets one. -/
def promptOn (patternFault : Text → Option Text) (related : List RelatedFile) :
    Subject → Option Text
  | .pair s d =>
    match filesReferring patternFault related s.name with
    | .ok files => some (Prompt.full s d (relatedText files))
    | .error _ => none
  | _ => none

/-- How a report with a service stands to the one without. -/
structure ReviewAdds (complete : Text → Option Text) (prompt : Option Text)
    (plain reviewed : Report) : Prop where
  adds : AddsRemarks plain reviewed
  /-- Where the service is not asked, the reports are identical. -/
  unasked : prompt = none → reviewed = plain
  /-- Where it is asked, its answer is the assessment. -/
  asked : ∀ p, prompt = some p → reviewed.assessment = some (Assessor.ofAnswer (complete p))
  /-- Where it fails, nothing but the assessment tells. -/
  failed : ∀ p, prompt = some p → complete p = none →
    reviewed.assessment = some Assessment.unavailable ∧ reviewed.issues = plain.issues ∧
      reviewed.summary = plain.summary

/-- A service that fails or is not asked leaves the summary as it is. -/
theorem ReviewAdds.summary_eq {complete : Text → Option Text} {prompt : Option Text}
    {plain reviewed : Report} (h : ReviewAdds complete prompt plain reviewed)
    (hfail : ∀ p, prompt = some p → complete p = none) : reviewed.summary = plain.summary := by
  cases hprompt : prompt with
  | none => rw [h.unasked hprompt]
  | some p => exact (h.failed p hprompt (hfail p hprompt)).2.2

/-- A pair that can be compared is reported with what the assessor makes of it. -/
theorem reportOn_pair (assessor : Assessor Id) {s : Specification} {d : SourceModule}
    {files : List RelatedFile} (hfiles : filesReferring patternFault related s.name = .ok files) :
    (reportOn assessor patternFault related (.pair s d)).run =
      comparison files s d (assessor.assess s d (relatedText files)).run := by
  simp only [reportOn]
  rw [hfiles]
  rfl

/-- A pair that cannot be compared is reported as such, whoever the assessor is. -/
theorem reportOn_pair_of_error (assessor : Assessor Id) {s : Specification} {d : SourceModule}
    {e : PatternError} (hfault : filesReferring patternFault related s.name = .error e) :
    (reportOn assessor patternFault related (.pair s d)).run = incomparable s d e := by
  simp only [reportOn]
  rw [hfault]
  rfl

/-- A report that no assessor was asked about adds nothing to itself. -/
theorem reviewAdds_unasked (complete : Text → Option Text) {r : Report}
    (h : r.assessment = none) : ReviewAdds complete none r r := by
  refine ⟨AddsRemarks.refl h, fun _ => rfl, ?_, ?_⟩
  · intro p hp
    cases hp
  · intro p hp
    cases hp

/-- A report on a pair adds the remarks that the service answers for its prompt. -/
theorem reviewAdds_asked (complete : Text → Option Text) (p : Text) (files : List RelatedFile)
    (s : Specification) (d : SourceModule) :
    ReviewAdds complete (some p) (comparison files s d none)
      (comparison files s d (some (Assessor.ofAnswer (complete p)))) := by
  refine ⟨addsRemarks_comparison files s d _, ?_, ?_, ?_⟩
  · intro hp
    cases hp
  · intro p' hp
    cases hp
    rfl
  · intro p' hp hfail
    cases hp
    rw [hfail]
    exact ⟨rfl, comparison_of_no_remarks files s d rfl⟩

variable (patternFault related) in
/-- On every subject, the report with a service adds to the one without. -/
theorem reviewAdds_reportOn (complete : Text → Option Text) (subject : Subject) :
    ReviewAdds complete (promptOn patternFault related subject)
      (reportOn (.disabled : Assessor Id) patternFault related subject).run
      (reportOn (.service complete : Assessor Id) patternFault related subject).run := by
  cases subject with
  | specification s => exact reviewAdds_unasked complete rfl
  | implementation d => exact reviewAdds_unasked complete rfl
  | pair s d =>
    cases hfiles : filesReferring patternFault related s.name with
    | error e =>
      rw [reportOn_pair_of_error _ hfiles, reportOn_pair_of_error _ hfiles]
      simp only [promptOn, hfiles]
      exact reviewAdds_unasked complete rfl
    | ok files =>
      rw [reportOn_pair _ hfiles, reportOn_pair _ hfiles]
      simp only [promptOn, hfiles]
      exact reviewAdds_asked complete (Prompt.full s d (relatedText files)) files s d

/-! ## The two runs -/

/-- Whether and how a run fails does not depend on the assessor. If it does not fail and the
assessor is a plain function, the subjects are reported on one by one. -/
theorem run_ofTree_cases (tree : FileTree) (scope : Scope) :
    (∃ e, ∀ assessor : Assessor Id, (ofTree assessor tree scope).run = .error e) ∨
    ∃ specs modules,
      tree.specifications scope.specDirectory = .ok specs ∧
      tree.modules scope.implementationDirectory = .ok modules ∧
      ∀ assessor : Assessor Id, (ofTree assessor tree scope).run = .ok
        { reports := (subjectsInScope scope specs modules).map fun subject =>
            (reportOn assessor scope.patternFault
              (tree.relatedFiles scope.relatedDirectory).items subject).run
          skipped := skippedInScope tree scope specs modules } := by
  rcases ofTree_cases tree scope with ⟨e, he⟩ | ⟨specs, modules, hspecs, hmodules, hloop⟩
  · refine Or.inl ⟨e, fun assessor => ?_⟩
    rw [he]
    rfl
  · refine Or.inr ⟨specs, modules, hspecs, hmodules, fun assessor => ?_⟩
    rw [hloop, ← List.idRun_mapM]
    rfl

/-- The exit code depends on the summaries only. -/
theorem exitCode_congr {r r' : Run}
    (h : r.reports.map Report.summary = r'.reports.map Report.summary) (strict : Bool) :
    r.exitCode strict = r'.exitCode strict := by
  have herrors : ∀ run : Run, run.hasErrors =
      (run.reports.map Report.summary).any fun s => 0 < s.errorCount := by
    intro run
    rw [List.any_map]
    rfl
  have hwarnings : ∀ run : Run, run.hasWarnings =
      (run.reports.map Report.summary).any fun s => 0 < s.warningCount := by
    intro run
    rw [List.any_map]
    rfl
  unfold exitCode
  rw [herrors, herrors, hwarnings, hwarnings, h]

/-- Counts that do not go down do not lower the exit code. -/
theorem exitCode_mono {r r' : Run} (h : List.Forall₂ AddsRemarks r.reports r'.reports)
    (strict : Bool) : r.exitCode strict ≤ r'.exitCode strict := by
  have herrors : r.hasErrors = true → r'.hasErrors = true := by
    refine any_of_forall₂ (fun plain reviewed hadds hplain => ?_) h
    have hpos : 0 < plain.summary.errorCount := of_decide_eq_true hplain
    exact decide_eq_true (Nat.lt_of_lt_of_le hpos hadds.errorCount)
  have hwarnings : r.hasWarnings = true → r'.hasWarnings = true := by
    refine any_of_forall₂ (fun plain reviewed hadds hplain => ?_) h
    have hpos : 0 < plain.summary.warningCount := of_decide_eq_true hplain
    exact decide_eq_true (Nat.lt_of_lt_of_le hpos hadds.warningCount)
  unfold exitCode
  by_cases hcode : (r.hasErrors || (strict && r.hasWarnings)) = true
  · have hcode' : (r'.hasErrors || (strict && r'.hasWarnings)) = true := by
      simp only [Bool.or_eq_true, Bool.and_eq_true] at hcode ⊢
      exact hcode.imp herrors (And.imp_right hwarnings)
    exact Nat.le_of_eq ((if_pos hcode).trans (if_pos hcode').symm)
  · rw [if_neg hcode]
    exact Nat.zero_le _

/-- The run with a service fails just as the run without, and otherwise reports on the same subjects
in the same order and leaves out the same files. Each of its reports adds to the one without the
service, and only the reports on pairs that can be compared differ at all. The exit code is no
lower, and it is the same if the service fails whenever it is asked. -/
theorem service_run_only_adds (complete : Text → Option Text) (tree : FileTree) (scope : Scope) :
    (∀ e, (ofTree (.disabled : Assessor Id) tree scope).run = .error e ↔
      (ofTree (.service complete : Assessor Id) tree scope).run = .error e) ∧
    ∀ plain, (ofTree (.disabled : Assessor Id) tree scope).run = .ok plain →
      ∃ (reviewed : Run) (specs : Scan Specification) (modules : Scan SourceModule)
        (before after : Subject → Report),
        (ofTree (.service complete : Assessor Id) tree scope).run = .ok reviewed ∧
        reviewed.skipped = plain.skipped ∧
        tree.specifications scope.specDirectory = .ok specs ∧
        tree.modules scope.implementationDirectory = .ok modules ∧
        plain.reports = (subjectsInScope scope specs modules).map before ∧
        reviewed.reports = (subjectsInScope scope specs modules).map after ∧
        (∀ subject ∈ subjectsInScope scope specs modules,
          ReviewAdds complete
            (promptOn scope.patternFault (tree.relatedFiles scope.relatedDirectory).items subject)
            (before subject) (after subject)) ∧
        (∀ strict, plain.exitCode strict ≤ reviewed.exitCode strict) ∧
        ((∀ subject ∈ subjectsInScope scope specs modules, ∀ p,
            promptOn scope.patternFault (tree.relatedFiles scope.relatedDirectory).items subject =
              some p → complete p = none) →
          ∀ strict, reviewed.exitCode strict = plain.exitCode strict) := by
  rcases run_ofTree_cases tree scope with ⟨e, he⟩ | ⟨specs, modules, hspecs, hmodules, hrun⟩
  · rw [he, he]
    refine ⟨fun e' => Iff.rfl, ?_⟩
    intro plain hplain
    cases hplain
  · rw [hrun, hrun]
    refine ⟨fun e => ⟨nofun, nofun⟩, ?_⟩
    intro plain hplain
    cases hplain
    have hadds := reviewAdds_reportOn scope.patternFault
      (tree.relatedFiles scope.relatedDirectory).items complete
    refine ⟨_, specs, modules, _, _, rfl, rfl, hspecs, hmodules, rfl, rfl,
      fun subject _ => hadds subject, ?_, ?_⟩
    · intro strict
      apply exitCode_mono
      rw [List.forall₂_map_left_iff, List.forall₂_map_right_iff, List.forall₂_same]
      exact fun subject _ => (hadds subject).adds
    · intro hfail strict
      apply exitCode_congr
      simp only [List.map_map]
      apply List.map_congr_left
      exact fun subject hsubject => (hadds subject).summary_eq (hfail subject hsubject)

/-- With a service that does not answer, the small project has the same reports as without one. -/
theorem small_project_service_down :
    ∃ plain reviewed,
      (ofTree (.disabled : Assessor Id) smallProject smallScope).run = .ok plain ∧
      (ofTree (.service fun _ => none : Assessor Id) smallProject smallScope).run = .ok reviewed ∧
      reviewed.skipped = plain.skipped ∧
      List.Forall₂ AddsRemarks plain.reports reviewed.reports ∧
      ∀ strict, reviewed.exitCode strict = plain.exitCode strict := by
  have hok : (ofTree (.disabled : Assessor Id) smallProject smallScope).run.isOk = true := by
    decide +kernel
  cases hplain : (ofTree (.disabled : Assessor Id) smallProject smallScope).run with
  | error e =>
    rw [hplain] at hok
    cases hok
  | ok plain =>
    obtain ⟨reviewed, specs, modules, before, after, hreviewed, hskipped, -, -, hbefore, hafter,
      hadds, -, hcode⟩ :=
      (service_run_only_adds (fun _ => none) smallProject smallScope).2 plain hplain
    refine ⟨plain, reviewed, rfl, hreviewed, hskipped, ?_, hcode fun _ _ _ _ => rfl⟩
    rw [hbefore, hafter, List.forall₂_map_left_iff, List.forall₂_map_right_iff, List.forall₂_same]
    exact fun subject hsubject => (hadds subject hsubject).adds

end Run

end Concordance
