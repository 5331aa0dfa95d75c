import Concordance.Alignment.Battery
import Mathlib.Data.List.Basic

set_option autoImplicit false

/-!
# What the battery finds

The battery's steps leave findings to each other, so that what it says about a method depends on
several of them. `Finds` lists, once and for all steps, each issue the battery can report with the
condition under which it does. `mem_compare_iff` says that these are the issues of `compare`;
statements about the battery argue by cases over `Finds` and open no step.
-/

namespace Concordance

/-! ## Defects of modules -/

namespace SourceModule

variable {m : SourceModule} {d : Method}

/-- The actions of a module are its methods without the mark. -/
theorem mem_actions_iff : d ∈ m.actions ↔ d ∈ m.methods ∧ d.isQuery = false := by
  unfold actions
  rw [List.mem_filter, Bool.not_eq_true']

/-- A method has the defect of a reader without a mark, or else those of an action. -/
theorem mem_methodDefects_iff {x : ConventionDefect} :
    x ∈ m.methodDefects d ↔
      d.isQuery = false ∧
        ((isQueryShaped d.name = true ∧ x = .queryNaming d.name) ∨
          (isQueryShaped d.name = false ∧
            ((d.handlesFailure = false ∧ x = .missingFailureHandling d.name) ∨
              (d.isAsync = false ∧ m.touchesPersistence d = true ∧
                x = .syncPersistence d.name)))) := by
  unfold methodDefects
  cases hquery : d.isQuery with
  | true => simp
  | false =>
    cases hshape : isQueryShaped d.name with
    | true => simp
    | false =>
      cases hfailure : d.handlesFailure <;> cases hasync : d.isAsync <;>
        cases htouch : m.touchesPersistence d <;> simp

/-- The defects of a module are its imports of other concepts and what its methods lack. -/
theorem mem_defects_iff {x : ConventionDefect} :
    x ∈ m.defects ↔
      (∃ path ∈ m.dependencies, x = .dependency path) ∨ ∃ d ∈ m.methods, x ∈ m.methodDefects d := by
  unfold defects
  rw [List.mem_append, List.mem_map, List.mem_flatMap]
  simp only [eq_comm]

end SourceModule

namespace Battery

/-! ## The issues and their conditions -/

/-- What the battery finds. A method's own defects count only if the specification declares nothing
of its name; what it does declare is looked up, and found wanting or missing. -/
inductive Finds (s : Specification) (m : SourceModule) : Issue → Prop where
  | specificationDefect {x : SpecificationDefect} (hx : x ∈ s.defects) :
      Finds s m (specificationIssue s x)
  | dependency {path : Text} (hpath : path ∈ m.dependencies) : Finds s m (dependencyIssue m path)
  | failureUnhandled {d : Method} (hd : d ∈ m.actions) (hshape : isQueryShaped d.name = false)
      (hdeclared : declares s d.name = false) (hfailure : d.handlesFailure = false) :
      Finds s m
        (methodIssue m .missingErrorHandling (.missingFailureHandling d.name) d.name)
  | syncPersistence {d : Method} (hd : d ∈ m.actions) (hshape : isQueryShaped d.name = false)
      (hdeclared : declares s d.name = false) (hasync : d.isAsync = false)
      (htouch : m.touchesPersistence d = true) :
      Finds s m (methodIssue m .signatureMismatch (.syncPersistence d.name) d.name)
  | missingAction {a : Operation} (ha : a ∈ s.actions)
      (hnone : m.actions.find? (fun d => d.name = a.name) = none) :
      Finds s m (missingAction s m a)
  | noErrorOutcome {a : Operation} {d : Method} (ha : a ∈ s.actions)
      (hd : m.actions.find? (fun d => d.name = a.name) = some d)
      (herror : d.hasErrorResult = false) : Finds s m (noErrorOutcome s m a d)
  | notAsync {a : Operation} {d : Method} (ha : a ∈ s.actions)
      (hd : m.actions.find? (fun d => d.name = a.name) = some d) (hasync : d.isAsync = false)
      (htouch : m.touchesPersistence d = true) : Finds s m (notAsync m a d)
  | unspecifiedAction {d : Method} (hd : d ∈ m.actions) (hspecified : isSpecified s d = false) :
      Finds s m (unspecifiedAction m d)
  | missingQuery {q : Operation} (hq : q ∈ s.queries) (hnone : implementing? m q = none) :
      Finds s m (missingQuery s m q)
  | notSequence {q : Operation} {d : Method} (hq : q ∈ s.queries)
      (hd : implementing? m q = some d) (hsequence : isSequenceType d.returnType = false) :
      Finds s m (notSequence s m q d)
  | unmarkedQuery {q : Operation} {d : Method} (hq : q ∈ s.queries)
      (hd : implementing? m q = some d) (hmark : isQueryName d.name = false)
      (hshape : isQueryShaped d.name = false) : Finds s m (namingError m d)
  | unmarkedReader {d : Method} (hd : d ∈ m.actions) (hshape : isQueryShaped d.name = true) :
      Finds s m (namingError m d)
  | noType (hnone : m.exposedType = none) :
      Finds s m (misnamedType s m ("No exported type found; expected '" ++ s.className ++ "'"))
  | wrongType {type : Text} (htype : m.exposedType = some type) (hne : type ≠ s.className) :
      Finds s m (misnamedType s m ("Type '" ++ type ++ "' should be named '" ++ s.className ++ "'"))

variable {s : Specification} {m : SourceModule} {i : Issue}

/-! ## From the steps to the findings -/

/-- A defect of the module that is reported is one that no later step sees to. -/
theorem finds_of_moduleIssue? {x : ConventionDefect} (hx : x ∈ m.defects)
    (h : moduleIssue? s m x = some i) : Finds s m i := by
  unfold moduleIssue? at h
  split at h
  · cases h
  · next hdeclared =>
    rcases SourceModule.mem_defects_iff.mp hx with ⟨path, hpath, rfl⟩ | ⟨d, hd, hmethod⟩
    · cases h
      exact .dependency hpath
    · obtain ⟨hquery, hkind⟩ := SourceModule.mem_methodDefects_iff.mp hmethod
      have haction : d ∈ m.actions := SourceModule.mem_actions_iff.mpr ⟨hd, hquery⟩
      rcases hkind with ⟨-, rfl⟩ | ⟨hshape, ⟨hfailure, rfl⟩ | ⟨hasync, htouch, rfl⟩⟩
      · cases h
      · cases h
        exact .failureUnhandled haction hshape (by simpa [ConventionDefect.method?] using hdeclared)
          hfailure
      · cases h
        exact .syncPersistence haction hshape (by simpa [ConventionDefect.method?] using hdeclared)
          hasync htouch

/-- The issues about the module itself are what the battery finds. -/
theorem finds_of_mem_defectIssues (h : i ∈ defectIssues s m) : Finds s m i := by
  unfold defectIssues at h
  rw [List.mem_append, List.mem_map, List.mem_filterMap] at h
  rcases h with ⟨x, hx, rfl⟩ | ⟨x, hx, hi⟩
  · exact .specificationDefect hx
  · exact finds_of_moduleIssue? hx hi

/-- The issues about the actions are what the battery finds. -/
theorem finds_of_mem_allActionIssues (h : i ∈ allActionIssues s m) : Finds s m i := by
  unfold allActionIssues at h
  rw [List.mem_append, List.mem_flatMap, List.mem_map] at h
  rcases h with ⟨a, ha, hi⟩ | ⟨d, hd, rfl⟩
  · unfold actionIssues at hi
    split at hi
    · next hnone =>
      rw [List.mem_singleton.mp hi]
      exact .missingAction ha hnone
    · next d hd =>
      rcases List.mem_append.mp hi with hi | hi
      · split at hi
        · simp at hi
        · next herror =>
          rw [List.mem_singleton.mp hi]
          exact .noErrorOutcome ha hd (by simpa using herror)
      · split at hi
        · next hsync =>
          rw [List.mem_singleton.mp hi]
          simp only [Bool.and_eq_true, Bool.not_eq_true'] at hsync
          exact .notAsync ha hd hsync.1 hsync.2
        · simp at hi
  · rw [List.mem_filter, Bool.not_eq_true'] at hd
    exact .unspecifiedAction hd.1 hd.2

/-- The issues about the queries are what the battery finds. -/
theorem finds_of_mem_allQueryIssues (h : i ∈ allQueryIssues s m) : Finds s m i := by
  unfold allQueryIssues at h
  rw [List.mem_append, List.mem_flatMap, List.mem_map] at h
  rcases h with ⟨q, hq, hi⟩ | ⟨d, hd, rfl⟩
  · unfold queryIssues at hi
    split at hi
    · next hnone =>
      rw [List.mem_singleton.mp hi]
      exact .missingQuery hq hnone
    · next d hd =>
      rcases List.mem_append.mp hi with hi | hi
      · split at hi
        · simp at hi
        · next hsequence =>
          rw [List.mem_singleton.mp hi]
          exact .notSequence hq hd (by simpa using hsequence)
      · split at hi
        · next hname =>
          rw [List.mem_singleton.mp hi]
          simp only [Bool.and_eq_true, Bool.not_eq_true'] at hname
          exact .unmarkedQuery hq hd hname.1 hname.2
        · simp at hi
  · rw [List.mem_filter] at hd
    exact .unmarkedReader hd.1 hd.2

/-- The issues about the exported class are what the battery finds. -/
theorem finds_of_mem_typeIssues (h : i ∈ typeIssues s m) : Finds s m i := by
  unfold typeIssues at h
  split at h
  · next hnone =>
    rw [List.mem_singleton.mp h]
    exact .noType hnone
  · next type htype =>
    split at h
    · simp at h
    · next hne =>
      rw [List.mem_singleton.mp h]
      exact .wrongType htype hne

/-! ## From the findings to the steps -/

/-- A defect that no later step sees to is reported. -/
theorem mem_defectIssues_of_mem_methodDefects {d : Method} {x : ConventionDefect}
    (hd : d ∈ m.methods) (hx : x ∈ m.methodDefects d) (hi : moduleIssue? s m x = some i) :
    i ∈ defectIssues s m := by
  unfold defectIssues
  rw [List.mem_append, List.mem_filterMap]
  exact Or.inr ⟨x, SourceModule.mem_defects_iff.mpr (Or.inr ⟨d, hd, hx⟩), hi⟩

/-- An issue about a declared action is one about the actions. -/
theorem mem_allActionIssues_of_mem_actionIssues {a : Operation} (ha : a ∈ s.actions)
    (hi : i ∈ actionIssues s m a) : i ∈ allActionIssues s m := by
  unfold allActionIssues
  rw [List.mem_append, List.mem_flatMap]
  exact Or.inl ⟨a, ha, hi⟩

/-- An issue about a declared query is one about the queries. -/
theorem mem_allQueryIssues_of_mem_queryIssues {q : Operation} (hq : q ∈ s.queries)
    (hi : i ∈ queryIssues s m q) : i ∈ allQueryIssues s m := by
  unfold allQueryIssues
  rw [List.mem_append, List.mem_flatMap]
  exact Or.inl ⟨q, hq, hi⟩

/-- What the battery finds is among the issues of the comparison. -/
theorem mem_compare_of_finds (h : Finds s m i) : i ∈ compare s m := by
  have hstep : i ∈ defectIssues s m ∨ i ∈ allActionIssues s m ∨ i ∈ allQueryIssues s m ∨
      i ∈ typeIssues s m := by
    cases h with
    | specificationDefect hx =>
      exact Or.inl (List.mem_append_left _ (List.mem_map_of_mem hx))
    | @dependency path hpath =>
      have hdefect := SourceModule.mem_defects_iff.mpr (Or.inl ⟨path, hpath, rfl⟩)
      exact Or.inl (List.mem_append_right _ (List.mem_filterMap.mpr ⟨_, hdefect, rfl⟩))
    | failureUnhandled hd hshape hdeclared hfailure =>
      obtain ⟨hmem, hquery⟩ := SourceModule.mem_actions_iff.mp hd
      refine Or.inl (mem_defectIssues_of_mem_methodDefects hmem
        (SourceModule.mem_methodDefects_iff.mpr
          ⟨hquery, Or.inr ⟨hshape, Or.inl ⟨hfailure, rfl⟩⟩⟩) ?_)
      simp [moduleIssue?, ConventionDefect.method?, hdeclared]
    | syncPersistence hd hshape hdeclared hasync htouch =>
      obtain ⟨hmem, hquery⟩ := SourceModule.mem_actions_iff.mp hd
      refine Or.inl (mem_defectIssues_of_mem_methodDefects hmem
        (SourceModule.mem_methodDefects_iff.mpr
          ⟨hquery, Or.inr ⟨hshape, Or.inr ⟨hasync, htouch, rfl⟩⟩⟩) ?_)
      simp [moduleIssue?, ConventionDefect.method?, hdeclared]
    | missingAction ha hnone =>
      refine Or.inr (Or.inl (mem_allActionIssues_of_mem_actionIssues ha ?_))
      simp [actionIssues, hnone]
    | noErrorOutcome ha hd herror =>
      refine Or.inr (Or.inl (mem_allActionIssues_of_mem_actionIssues ha ?_))
      simp [actionIssues, hd, herror]
    | notAsync ha hd hasync htouch =>
      refine Or.inr (Or.inl (mem_allActionIssues_of_mem_actionIssues ha ?_))
      simp [actionIssues, hd, hasync, htouch]
    | unspecifiedAction hd hspecified =>
      refine Or.inr (Or.inl (List.mem_append_right _ (List.mem_map_of_mem ?_)))
      rw [List.mem_filter, Bool.not_eq_true']
      exact ⟨hd, hspecified⟩
    | missingQuery hq hnone =>
      refine Or.inr (Or.inr (Or.inl (mem_allQueryIssues_of_mem_queryIssues hq ?_)))
      simp [queryIssues, hnone]
    | notSequence hq hd hsequence =>
      refine Or.inr (Or.inr (Or.inl (mem_allQueryIssues_of_mem_queryIssues hq ?_)))
      simp [queryIssues, hd, hsequence]
    | unmarkedQuery hq hd hmark hshape =>
      refine Or.inr (Or.inr (Or.inl (mem_allQueryIssues_of_mem_queryIssues hq ?_)))
      simp [queryIssues, hd, hmark, hshape]
    | unmarkedReader hd hshape =>
      refine Or.inr (Or.inr (Or.inl (List.mem_append_right _ (List.mem_map_of_mem ?_))))
      exact List.mem_filter.mpr ⟨hd, hshape⟩
    | noType hnone =>
      refine Or.inr (Or.inr (Or.inr ?_))
      simp [typeIssues, hnone]
    | wrongType htype hne =>
      refine Or.inr (Or.inr (Or.inr ?_))
      simp [typeIssues, htype, hne]
  unfold compare
  simp only [List.mem_append]
  rcases hstep with h | h | h | h
  · exact Or.inl (Or.inl (Or.inl h))
  · exact Or.inl (Or.inl (Or.inr h))
  · exact Or.inl (Or.inr h)
  · exact Or.inr h

/-- The issues of the battery are what it finds. -/
theorem mem_compare_iff : i ∈ compare s m ↔ Finds s m i := by
  constructor
  · intro h
    unfold compare at h
    simp only [List.mem_append] at h
    rcases h with ((h | h) | h) | h
    · exact finds_of_mem_defectIssues h
    · exact finds_of_mem_allActionIssues h
    · exact finds_of_mem_allQueryIssues h
    · exact finds_of_mem_typeIssues h
  · exact mem_compare_of_finds

end Battery

end Concordance
