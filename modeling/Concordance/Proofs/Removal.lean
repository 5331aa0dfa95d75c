import Concordance.Proofs.Reordering

set_option autoImplicit false

/-!
# What it costs to leave out an action

Take a pair in which the battery finds nothing, and leave out the method of one action. The battery
then reports that action as missing, and nothing else. A name is looked up among fewer methods, but
the lookups for other actions and for queries end where they did: the method of another action has
another name, and the method of a query carries a mark, which the method of an action does not. What
is reported method by method is reported for fewer of them.
-/

namespace Concordance

/-- The module without the methods of a name. -/
def SourceModule.without (m : SourceModule) (name : Text) : SourceModule :=
  m.withMethods (m.methods.filter fun d => d.name ≠ name)

namespace Battery

variable {s : Specification} {m : SourceModule} {name : Text}

/-- A module that loses a name keeps just the methods of other names. -/
theorem mem_methods_without {d : Method} :
    d ∈ (m.without name).methods ↔ d ∈ m.methods ∧ d.name ≠ name := by
  unfold SourceModule.without SourceModule.withMethods
  rw [List.mem_filter, decide_eq_true_eq]

/-- A removal adds no action. -/
theorem mem_actions_of_mem_without {d : Method} (h : d ∈ (m.without name).actions) :
    d ∈ m.actions := by
  obtain ⟨hmem, hquery⟩ := SourceModule.mem_actions_iff.mp h
  exact SourceModule.mem_actions_iff.mpr ⟨(mem_methods_without.mp hmem).1, hquery⟩

/-! ## Lookups among fewer methods -/

/-- What is first stays first when others are left out. -/
theorem IsFirst.filter {α : Type} {P : α → Prop} {l : List α} {a : α} (h : IsFirst P l a)
    {keep : α → Bool} (ha : keep a = true) : IsFirst P (l.filter keep) a := by
  obtain ⟨front, back, rfl, hholds, hfront⟩ := h
  refine ⟨front.filter keep, back.filter keep, ?_, hholds, ?_⟩
  · rw [List.filter_append, List.filter_cons_of_pos ha]
  · intro b hb
    exact hfront b (List.mem_of_mem_filter hb)

/-- The action of another name is found as before. -/
theorem find?_actions_without_of_ne {other : Text} (h : other ≠ name) :
    (m.without name).actions.find? (fun d => d.name = other) =
      m.actions.find? (fun d => d.name = other) := by
  unfold SourceModule.without SourceModule.withMethods SourceModule.actions
  simp only [List.find?_filter]
  congr 1
  funext d
  by_cases hname : d.name = other
  · simp [hname, h]
  · simp [hname]

/-- No action of the removed name is found. -/
theorem find?_actions_without_self :
    (m.without name).actions.find? (fun d => d.name = name) = none := by
  rw [List.find?_eq_none]
  intro d hd
  rw [decide_eq_true_eq]
  exact (mem_methods_without.mp (SourceModule.mem_actions_iff.mp hd).1).2

/-- The method of a query is found among fewer methods if it is one of them. -/
theorem Implements.without {q : Operation} {d : Method} (h : Implements m q d)
    (hname : d.name ≠ name) : Implements (m.without name) q d := by
  have hkeep : decide (d.name ≠ name) = true := decide_eq_true hname
  rcases h with hfirst | ⟨hnone, hfirst⟩
  · exact Or.inl (hfirst.filter hkeep)
  · refine Or.inr ⟨?_, hfirst.filter hkeep⟩
    intro e he
    exact hnone e (mem_methods_without.mp he).1

/-! ## The steps of the battery -/

/-- If nothing is found, then no step of the comparison finds anything. -/
theorem steps_eq_nil (h : compare s m = []) :
    defectIssues s m = [] ∧ allActionIssues s m = [] ∧ allQueryIssues s m = [] ∧
      typeIssues s m = [] := by
  unfold compare at h
  simpa only [List.append_eq_nil_iff, and_assoc] using h

/-- Whether a defect is left to later steps is up to the specification alone. -/
theorem moduleIssue?_eq_none_of_eq_none {x : ConventionDefect} (h : moduleIssue? s m x = none)
    (m' : SourceModule) : moduleIssue? s m' x = none := by
  unfold moduleIssue? at h ⊢
  split at h
  · next hdeclared => rw [if_pos hdeclared]
  · next hdeclared =>
    rw [if_neg hdeclared]
    cases x <;> simp_all

/-- A removal brings no defect about. -/
theorem defectIssues_without (h : defectIssues s m = []) :
    defectIssues s (m.without name) = [] := by
  unfold defectIssues at h ⊢
  rw [List.append_eq_nil_iff, List.filterMap_eq_nil_iff] at h ⊢
  refine ⟨h.1, ?_⟩
  intro x hx
  have hdefect : x ∈ m.defects := by
    rw [SourceModule.mem_defects_iff] at hx ⊢
    rcases hx with hpath | ⟨d, hd, hx⟩
    · exact Or.inl hpath
    · exact Or.inr ⟨d, (mem_methods_without.mp hd).1, hx⟩
  exact moduleIssue?_eq_none_of_eq_none (h.2 x hdefect) _

/-- What is said of an action stays the same when another one is removed. -/
theorem actionIssues_without_of_ne {b : Operation} (h : b.name ≠ name) :
    actionIssues s (m.without name) b = actionIssues s m b := by
  unfold actionIssues
  rw [find?_actions_without_of_ne h]
  rfl

/-- Of the actions, only the one left out has an issue. -/
theorem allActionIssues_without (hdistinct : (s.actions.map Operation.name).Nodup)
    (h : allActionIssues s m = []) {a : Operation} (ha : a ∈ s.actions) :
    allActionIssues s (m.without a.name) = [missingAction s m a] := by
  unfold allActionIssues at h ⊢
  rw [List.append_eq_nil_iff, List.flatMap_eq_nil_iff, List.map_eq_nil_iff,
    List.filter_eq_nil_iff] at h
  obtain ⟨hactions, hmethods⟩ := h
  have hself : actionIssues s (m.without a.name) a = [missingAction s m a] := by
    unfold actionIssues
    rw [find?_actions_without_self]
    rfl
  have hother : ∀ b ∈ s.actions, b.name ≠ a.name → actionIssues s (m.without a.name) b = [] := by
    intro b hb hne
    rw [actionIssues_without_of_ne hne]
    exact hactions b hb
  have hstray : ((m.without a.name).actions.filter fun d => !isSpecified s d) = [] := by
    rw [List.filter_eq_nil_iff]
    intro d hd
    exact hmethods d (mem_actions_of_mem_without hd)
  rw [flatMap_eq_of_forall_ne hdistinct ha hother, hself, hstray]
  rfl

/-- No query has an issue as long as its method stays. -/
theorem allQueryIssues_without (h : allQueryIssues s m = [])
    (hstay : ∀ q ∈ s.queries, ∃ d, Implements m q d ∧ d.name ≠ name) :
    allQueryIssues s (m.without name) = [] := by
  unfold allQueryIssues at h ⊢
  rw [List.append_eq_nil_iff, List.flatMap_eq_nil_iff, List.map_eq_nil_iff,
    List.filter_eq_nil_iff] at h ⊢
  refine ⟨?_, ?_⟩
  · intro q hq
    obtain ⟨d, himplements, hname⟩ := hstay q hq
    have hissues := h.1 q hq
    unfold queryIssues at hissues ⊢
    rw [implementing?_eq_some_iff.mpr himplements] at hissues
    rw [implementing?_eq_some_iff.mpr (himplements.without hname)]
    exact hissues
  · intro d hd
    exact h.2 d (mem_actions_of_mem_without hd)

/-- In an aligned pair, the method of a query has another name than any action: it is marked. -/
theorem Aligned.exists_implements_ne (h : Aligned s m) (hmarks : MarkedByName m) {a q : Operation}
    (ha : a ∈ s.actions) (hq : q ∈ s.queries) : ∃ d, Implements m q d ∧ d.name ≠ a.name := by
  obtain ⟨d, himplements, hmarked, -⟩ := h.queries q hq
  obtain ⟨e, haction, -⟩ := h.actions a ha
  obtain ⟨hquery, hname⟩ := haction.holds
  refine ⟨d, himplements, ?_⟩
  intro hsame
  have hunmarked : isQueryName e.name = false := (hmarks e haction.mem).symm.trans hquery
  rw [hname, ← hsame, hmarked] at hunmarked
  cases hunmarked

/-- Leave out the method of one action from a module in which the battery finds nothing. The one
issue is then that the action is missing, with a reference to the line that declares it, and the
score is 80. -/
theorem removing_action_costs_one_error (s : Specification) (m : SourceModule)
    (hmarks : MarkedByName m) (hdistinct : (s.actions.map Operation.name).Nodup)
    (hnil : compare s m = []) (a : Operation) (ha : a ∈ s.actions) :
    compare s (m.without a.name) = [missingAction s m a] ∧
      (missingAction s m a).related =
        some { file := s.path, line := some a.line, excerpt := some a.signature } ∧
      Summary.ofIssues (compare s (m.without a.name)) =
        { errorCount := 1, warningCount := 0, infoCount := 0, score := 80 } := by
  have haligned : Aligned s m := by
    apply aligned_of_not_finds hmarks
    intro i hi
    rw [← mem_compare_iff, hnil] at hi
    cases hi
  obtain ⟨hdefects, hactions, hqueries, htype⟩ := steps_eq_nil hnil
  have hcompare : compare s (m.without a.name) = [missingAction s m a] := by
    unfold compare
    rw [defectIssues_without hdefects, allActionIssues_without hdistinct hactions ha,
      allQueryIssues_without hqueries
        fun q hq => haligned.exists_implements_ne hmarks ha hq]
    change [] ++ [missingAction s m a] ++ [] ++ typeIssues s m = [missingAction s m a]
    rw [htype]
    rfl
  exact ⟨hcompare, rfl, by rw [hcompare]; rfl⟩

/-- Without its method create the module of a team lacks the action of that name, and nothing
else. -/
theorem team_without_create :
    MarkedByName teamModule ∧ compare teamSpecification teamModule = [] ∧
      (compare teamSpecification (teamModule.without "create")).map Issue.message =
        ["Action 'create' is specified but not implemented"] := by
  have hmarks : MarkedByName teamModule := by decide +kernel
  have hnil : compare teamSpecification teamModule = [] := by decide +kernel
  have hremoved := removing_action_costs_one_error teamSpecification teamModule hmarks
    (by decide +kernel) hnil { (default : Operation) with name := "create", line := 8 }
    (by decide +kernel)
  refine ⟨hmarks, hnil, ?_⟩
  have hname : teamModule.without "create" =
      teamModule.without { (default : Operation) with name := "create", line := 8 }.name := rfl
  rw [hname, hremoved.1]
  rfl

end Battery

end Concordance
