import Concordance.Proofs.Verdict
import Concordance.Report.Group
import Concordance.Report.Statistics

set_option autoImplicit false

/-!
# Issues in groups

A listing shows issues in groups, one for each severity that occurs, and heads them with totals that
are taken from the summaries. A group holds the issues of its severity in their order, so the groups
one after another are what a stable sort makes of the issues: a list in descending order is its
parts of each severity put together (`flatMap_filter_of_descends`), and a stable sort leaves each
part as it was (`filter_mergeSort`). The size of a group is the count in the summary, and the totals
are those of the groups.
-/

namespace Concordance

/-- The place of a severity among the others; the gravest has the highest. -/
def Severity.rank : Severity → Nat
  | info => 0
  | warning => 1
  | error => 2

/-- The first issue is at least as grave as the second. -/
def Issue.notLighter (a b : Issue) : Bool := b.severity.rank ≤ a.severity.rank

variable {a b c : Issue} {issues : List Issue} {r : Report} {severity : Severity}

/-! ## Descending severities -/

/-- Being no lighter is transitive. -/
theorem Issue.notLighter_trans (a b c : Issue) (hab : a.notLighter b = true)
    (hbc : b.notLighter c = true) : a.notLighter c = true := by
  simp only [notLighter, decide_eq_true_eq] at hab hbc ⊢
  omega

/-- Of two issues one is no lighter than the other. -/
theorem Issue.notLighter_total (a b : Issue) : (a.notLighter b || b.notLighter a) = true := by
  simp only [notLighter, Bool.or_eq_true, decide_eq_true_eq]
  omega

/-- Issues in descending order are made up of those of each severity, gravest first. -/
theorem flatMap_filter_of_descends (h : issues.Pairwise fun a b => a.notLighter b = true) :
    (Severity.descending.flatMap fun s => issues.filter fun i => i.severity = s) = issues := by
  induction issues with
  | nil => rfl
  | cons first rest ih =>
    obtain ⟨hfirst, hrest⟩ := List.pairwise_cons.mp h
    -- Nothing that follows is graver than the first issue.
    have hnone : ∀ s : Severity, first.severity.rank < s.rank →
        rest.filter (fun i => i.severity = s) = [] := by
      intro s hs
      refine List.filter_eq_nil_iff.mpr fun i hi hsame => ?_
      have hle := hfirst i hi
      simp only [Issue.notLighter, decide_eq_true_eq] at hle hsame
      rw [hsame] at hle
      omega
    have ih := ih hrest
    simp only [Severity.descending, List.flatMap_cons, List.flatMap_nil, List.append_nil,
      List.filter_cons] at ih ⊢
    cases hs : first.severity with
    | error => simpa using ih
    | warning =>
      rw [hnone .error (by rw [hs]; decide)] at ih ⊢
      simpa using ih
    | info =>
      rw [hnone .error (by rw [hs]; decide), hnone .warning (by rw [hs]; decide)] at ih ⊢
      simpa using ih

/-- A stable sort keeps the issues of one severity as they were. -/
theorem filter_mergeSort (issues : List Issue) (severity : Severity) :
    (issues.mergeSort Issue.notLighter).filter (fun i => i.severity = severity) =
      issues.filter fun i => i.severity = severity := by
  have hpart : (issues.filter fun i => i.severity = severity).Pairwise
      fun a b => a.notLighter b = true := by
    refine List.pairwise_of_forall_mem_list fun a ha b hb => ?_
    have ha := (List.mem_filter.mp ha).2
    have hb := (List.mem_filter.mp hb).2
    simp only [decide_eq_true_eq] at ha hb
    simp [Issue.notLighter, ha, hb]
  have hsublist := List.sublist_mergeSort Issue.notLighter_trans Issue.notLighter_total hpart
    List.filter_sublist
  have hkept := hsublist.filter fun i => i.severity = severity
  rw [List.filter_filter] at hkept
  simp only [Bool.and_self] at hkept
  -- The part is found again among those of its severity, and there are no more of them.
  refine (hkept.eq_of_length ?_).symm
  exact ((List.mergeSort_perm issues Issue.notLighter).filter _).length_eq.symm

/-! ## The groups of a report -/

namespace Report

/-- A group of a report is all the issues of one severity, and is not empty. -/
theorem mem_groups_iff {g : IssueGroup} :
    g ∈ r.groups ↔ g.issues ≠ [] ∧ g.issues = r.issuesOf g.severity := by
  unfold groups issuesOf
  rw [List.mem_filter, List.mem_map]
  constructor
  · rintro ⟨⟨s, -, rfl⟩, hne⟩
    exact ⟨by simpa using hne, rfl⟩
  · rintro ⟨hne, hissues⟩
    refine ⟨⟨g.severity, ?_, ?_⟩, by simpa using hne⟩
    · cases g.severity <;> decide
    · rw [← hissues]

/-- The groups of a report come with the heaviest first. -/
theorem pairwise_rank_groups (r : Report) :
    r.groups.Pairwise fun g h => h.severity.rank < g.severity.rank := by
  have hdescending : Severity.descending.Pairwise fun s t => t.rank < s.rank := by decide
  exact List.Pairwise.filter _ (List.pairwise_map.mpr hdescending)

/-- The groups together are the issues, severity by severity. -/
theorem flatMap_groups (r : Report) :
    r.groups.flatMap IssueGroup.issues = Severity.descending.flatMap r.issuesOf := by
  unfold groups issuesOf
  induction Severity.descending with
  | nil => rfl
  | cons s rest ih =>
    rw [List.map_cons, List.filter_cons, List.flatMap_cons, ← ih]
    split
    · rfl
    · next hempty =>
      have hnil : r.issues.filter (fun i => i.severity = s) = [] := by simpa using hempty
      rw [hnil, List.nil_append]

/-- The groups together are the issues in a stable order by weight. -/
theorem flatMap_groups_eq_mergeSort (r : Report) :
    r.groups.flatMap IssueGroup.issues = r.issues.mergeSort Issue.notLighter := by
  have hsorted := List.pairwise_mergeSort Issue.notLighter_trans Issue.notLighter_total r.issues
  rw [flatMap_groups, ← flatMap_filter_of_descends hsorted]
  simp only [filter_mergeSort]
  rfl

/-- There is one group of a severity if there are issues of it, and none otherwise. -/
theorem filter_groups (r : Report) (severity : Severity) :
    r.groups.filter (fun g => g.severity = severity) =
      [(⟨severity, r.issuesOf severity⟩ : IssueGroup)].filter fun g => !g.issues.isEmpty := by
  unfold groups
  rw [List.filter_comm]
  cases severity <;> rfl

end Report

/-! ## Totals -/

namespace Statistics

/-- The number of issues that the groups of a severity hold in all listings of reports. -/
def sizeOfGroups (severity : Severity) (reports : List Report) : Nat :=
  (((reports.flatMap Report.groups).filter fun g => g.severity = severity).flatMap
    IssueGroup.issues).length

/-- One more report adds its own issues of the severity. -/
@[simp, grind =] theorem sizeOfGroups_cons (severity : Severity) (r : Report)
    (reports : List Report) :
    sizeOfGroups severity (r :: reports) =
      Summary.countOf severity r.issues + sizeOfGroups severity reports := by
  have hone : ((r.groups.filter fun g => g.severity = severity).flatMap IssueGroup.issues).length =
      Summary.countOf severity r.issues := by
    rw [Report.filter_groups, ← Report.length_issuesOf]
    cases hissues : r.issuesOf severity with
    | nil => rfl
    | cons i rest => simp
  unfold sizeOfGroups
  rw [List.flatMap_cons, List.filter_append, List.flatMap_append, List.length_append, hone]

/-- A total that counts the issues of a severity is the size of the groups of that severity. -/
theorem total_eq_sizeOfGroups {reports : List Report} {count : Report → Nat}
    (h : ∀ r ∈ reports, count r = Summary.countOf severity r.issues) :
    total count reports = sizeOfGroups severity reports := by
  induction reports with
  | nil => rfl
  | cons r reports ih =>
    have ih := ih fun other hother => h other (List.mem_cons_of_mem r hother)
    simp [← ih, ← h r List.mem_cons_self, total]

end Statistics

/-- The groups of a report hold issues of one severity each, and at least one; they come gravest
first, and one after another they are the issues in the order of a stable sort. Where summaries
count the issues, whatever their scores are, the totals of a listing are the sizes of its groups. -/
theorem groups_are_the_issues_sorted :
    (∀ r : Report,
      (∀ g ∈ r.groups, g.issues ≠ [] ∧ ∀ i ∈ g.issues, i.severity = g.severity) ∧
      r.groups.Pairwise (fun g h => h.severity.rank < g.severity.rank) ∧
      r.groups.flatMap IssueGroup.issues =
        r.issues.mergeSort fun a b => b.severity.rank ≤ a.severity.rank) ∧
    ∀ reports : List Report,
      (∀ r ∈ reports, ∃ score, r.summary = { Summary.ofIssues r.issues with score := score }) →
      (Statistics.ofReports reports).errors = Statistics.sizeOfGroups .error reports ∧
      (Statistics.ofReports reports).warnings = Statistics.sizeOfGroups .warning reports ∧
      (Statistics.ofReports reports).infos = Statistics.sizeOfGroups .info reports := by
  constructor
  · intro r
    refine ⟨fun g hg => ?_, r.pairwise_rank_groups, r.flatMap_groups_eq_mergeSort⟩
    obtain ⟨hne, hissues⟩ := Report.mem_groups_iff.mp hg
    refine ⟨hne, fun i hi => ?_⟩
    rw [hissues] at hi
    simpa using (List.mem_filter.mp hi).2
  · intro reports hderived
    have hcounts : ∀ r ∈ reports,
        r.summary.errorCount = Summary.countOf .error r.issues ∧
        r.summary.warningCount = Summary.countOf .warning r.issues ∧
        r.summary.infoCount = Summary.countOf .info r.issues := by
      intro r hr
      obtain ⟨score, hsummary⟩ := hderived r hr
      rw [hsummary]
      exact ⟨rfl, rfl, rfl⟩
    refine ⟨?_, ?_, ?_⟩
    · exact Statistics.total_eq_sizeOfGroups fun r hr => (hcounts r hr).1
    · exact Statistics.total_eq_sizeOfGroups fun r hr => (hcounts r hr).2.1
    · exact Statistics.total_eq_sizeOfGroups fun r hr => (hcounts r hr).2.2

/-- An issue of a severity that says where it stood among others. -/
def numberedIssue (severity : Severity) (message : Text) : Issue :=
  { severity := severity, category := .missingAction, message := message
    location := { file := "Team.ts" } }

/-- A report with issues of all severities and a score of its own, and one on a module without a
specification. -/
def mixedReports : List Report :=
  [(Report.ofIssues "Team" "Team.concept" "Team.ts"
      [numberedIssue .info "1", numberedIssue .error "2", numberedIssue .warning "3",
        numberedIssue .error "4"]).withScore 60,
    Report.ofIssues "Mail" [] "Mail.ts" [numberedIssue .warning "5"]]

/-- Two reports with issues of all severities have the totals that their groups add up to. -/
theorem mixed_reports_counted_in_groups :
    (∀ r ∈ mixedReports,
      ∃ score, r.summary = { Summary.ofIssues r.issues with score := score }) ∧
    (mixedReports.flatMap Report.groups).map (fun g => g.issues.map Issue.message) =
      ([["2", "4"], ["3"], ["1"], ["5"]] : List (List Text)) ∧
    2 = Statistics.sizeOfGroups .error mixedReports ∧
    2 = Statistics.sizeOfGroups .warning mixedReports ∧
    1 = Statistics.sizeOfGroups .info mixedReports := by
  have hderived : ∀ r ∈ mixedReports,
      ∃ score, r.summary = { Summary.ofIssues r.issues with score := score } := by
    intro r hr
    rcases List.mem_pair.mp hr with rfl | rfl
    · exact ⟨60, rfl⟩
    · exact ⟨95, rfl⟩
  have htotals := groups_are_the_issues_sorted.2 mixedReports hderived
  exact ⟨hderived, by decide, htotals⟩

end Concordance
