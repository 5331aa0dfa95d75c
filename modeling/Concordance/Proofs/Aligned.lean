import Concordance.Proofs.Findings
import Concordance.Proofs.Lookup

set_option autoImplicit false

/-!
# The battery is silent on aligned pairs

A specification and a module are aligned if each side is in order and each operation of one is
matched by the other. The battery finds nothing just then. No step says that much by itself: defects
of declared methods are passed over by the first step, methods named for a query by the second, and
readers without a mark by the lookups of the third. Alignment leaves none of these ways out, because
a method of an aligned module is declared, marked where it reads, and looked up under its name.
-/

namespace Concordance.Battery

/-- A specification and a module that agree. -/
structure Aligned (s : Specification) (m : SourceModule) : Prop where
  /-- The specification has no defects. -/
  complete : s.defects = []
  /-- The module depends on no other concept. -/
  independent : m.dependencies = []
  /-- The exposed type is named for the concept. -/
  typeNamed : m.exposedType = some s.className
  /-- Each action has a method, which can fail visibly and does not wait for storage. -/
  actions : ∀ a ∈ s.actions, ∃ d, ImplementsAction m a.name d ∧ d.hasErrorResult = true ∧
    (d.isAsync = true ∨ m.touchesPersistence d = false)
  /-- Each query has a method, which is marked and gives a sequence. -/
  queries : ∀ q ∈ s.queries, ∃ d, Implements m q d ∧ isQueryName d.name = true ∧
    isSequenceType d.returnType = true
  /-- Each method without a mark does not read, and is named for an action or a query. -/
  methods : ∀ d ∈ m.methods, d.isQuery = false → isQueryShaped d.name = false ∧
    ((∃ a ∈ s.actions, a.name = d.name) ∨ ∃ q ∈ s.queries, unmarked q.name = d.name)

variable {s : Specification} {m : SourceModule}

/-! ## What a specification says of a name -/

/-- A method is specified just if an action has its name or a query has it without the mark. -/
theorem isSpecified_eq_true_iff {d : Method} :
    isSpecified s d = true ↔
      (∃ a ∈ s.actions, a.name = d.name) ∨ ∃ q ∈ s.queries, unmarked q.name = d.name := by
  unfold isSpecified Specification.action?
  rw [Bool.or_eq_true, List.find?_isSome, List.any_eq_true]
  simp only [decide_eq_true_eq]

/-- What is named for an action or a query is declared. -/
theorem declares_of_isSpecified {d : Method} (h : isSpecified s d = true) :
    declares s d.name = true := by
  unfold declares
  rw [List.any_eq_true]
  rcases isSpecified_eq_true_iff.mp h with ⟨a, ha, hname⟩ | ⟨q, hq, hname⟩
  · exact ⟨a, List.mem_append_left _ ha, by rw [hname]; simp⟩
  · refine ⟨q, List.mem_append_right _ hq, ?_⟩
    rw [← hname, unmarked_unmarked]
    simp

/-! ## The two directions -/

/-- Nothing is found in an aligned pair. -/
theorem Aligned.not_finds (h : Aligned s m) (i : Issue) : ¬ Finds s m i := by
  have hspecified : ∀ d ∈ m.actions, isSpecified s d = true := by
    intro d hd
    obtain ⟨hmem, hquery⟩ := SourceModule.mem_actions_iff.mp hd
    exact isSpecified_eq_true_iff.mpr (h.methods d hmem hquery).2
  have hactions : ∀ a ∈ s.actions, ∀ d, m.actions.find? (fun d => d.name = a.name) = some d →
      d.hasErrorResult = true ∧ (d.isAsync = true ∨ m.touchesPersistence d = false) := by
    intro a ha d hd
    obtain ⟨e, he, herror, hsync⟩ := h.actions a ha
    rw [find?_actions_eq_some_iff.mpr he] at hd
    cases hd
    exact ⟨herror, hsync⟩
  have hqueries : ∀ q ∈ s.queries, ∀ d, implementing? m q = some d →
      isQueryName d.name = true ∧ isSequenceType d.returnType = true := by
    intro q hq d hd
    obtain ⟨e, he, hmark, hsequence⟩ := h.queries q hq
    rw [implementing?_eq_some_iff.mpr he] at hd
    cases hd
    exact ⟨hmark, hsequence⟩
  intro hi
  cases hi with
  | specificationDefect hx => simp [h.complete] at hx
  | dependency hpath => simp [h.independent] at hpath
  | failureUnhandled hd _ hdeclared _ =>
    simp [declares_of_isSpecified (hspecified _ hd)] at hdeclared
  | syncPersistence hd _ hdeclared _ _ =>
    simp [declares_of_isSpecified (hspecified _ hd)] at hdeclared
  | missingAction ha hnone =>
    obtain ⟨d, hd, -⟩ := h.actions _ ha
    rw [find?_actions_eq_some_iff.mpr hd] at hnone
    cases hnone
  | noErrorOutcome ha hd herror => simp [(hactions _ ha _ hd).1] at herror
  | notAsync ha hd hasync htouch =>
    rcases (hactions _ ha _ hd).2 with hsync | hsync
    · simp [hsync] at hasync
    · simp [hsync] at htouch
  | unspecifiedAction hd hnot => simp [hspecified _ hd] at hnot
  | missingQuery hq hnone =>
    obtain ⟨d, hd, -⟩ := h.queries _ hq
    rw [implementing?_eq_some_iff.mpr hd] at hnone
    cases hnone
  | notSequence hq hd hsequence => simp [(hqueries _ hq _ hd).2] at hsequence
  | unmarkedQuery hq hd hmark _ => simp [(hqueries _ hq _ hd).1] at hmark
  | unmarkedReader hd hshape =>
    obtain ⟨hmem, hquery⟩ := SourceModule.mem_actions_iff.mp hd
    simp [(h.methods _ hmem hquery).1] at hshape
  | noType hnone => simp [h.typeNamed] at hnone
  | wrongType htype hne =>
    rw [h.typeNamed] at htype
    exact hne (Option.some.inj htype).symm

/-- If nothing is found, each action has a method as it should be. -/
theorem actions_of_not_finds (hno : ∀ i, ¬ Finds s m i) {a : Operation} (ha : a ∈ s.actions) :
    ∃ d, ImplementsAction m a.name d ∧ d.hasErrorResult = true ∧
      (d.isAsync = true ∨ m.touchesPersistence d = false) := by
  cases hd : m.actions.find? (fun d => d.name = a.name) with
  | none => exact absurd (.missingAction ha hd) (hno _)
  | some d =>
    refine ⟨d, find?_actions_eq_some_iff.mp hd, ?_, ?_⟩
    · by_contra herror
      exact hno _ (.noErrorOutcome ha hd (by simpa using herror))
    · by_contra hsync
      rw [not_or, Bool.not_eq_true, Bool.not_eq_false] at hsync
      exact hno _ (.notAsync ha hd hsync.1 hsync.2)

/-- If nothing is found, each query has a method as it should be. The lookup may end at a method
without a mark; that one would be found as a reader, or as the unmarked method of the query. -/
theorem queries_of_not_finds (hmarks : MarkedByName m) (hno : ∀ i, ¬ Finds s m i) {q : Operation}
    (hq : q ∈ s.queries) :
    ∃ d, Implements m q d ∧ isQueryName d.name = true ∧ isSequenceType d.returnType = true := by
  cases hd : implementing? m q with
  | none => exact absurd (.missingQuery hq hd) (hno _)
  | some d =>
    have himplements := implementing?_eq_some_iff.mp hd
    refine ⟨d, himplements, ?_, ?_⟩
    · by_contra hmark
      rw [Bool.not_eq_true] at hmark
      have hquery : d.isQuery = false := (hmarks d himplements.mem).trans hmark
      have haction : d ∈ m.actions := SourceModule.mem_actions_iff.mpr ⟨himplements.mem, hquery⟩
      cases hshape : isQueryShaped d.name with
      | true => exact hno _ (.unmarkedReader haction hshape)
      | false => exact hno _ (.unmarkedQuery hq hd hmark hshape)
    · by_contra hsequence
      exact hno _ (.notSequence hq hd (by simpa using hsequence))

/-- If nothing is found, each method without a mark is as it should be. -/
theorem methods_of_not_finds (hno : ∀ i, ¬ Finds s m i) {d : Method} (hd : d ∈ m.methods)
    (hquery : d.isQuery = false) :
    isQueryShaped d.name = false ∧
      ((∃ a ∈ s.actions, a.name = d.name) ∨ ∃ q ∈ s.queries, unmarked q.name = d.name) := by
  have haction : d ∈ m.actions := SourceModule.mem_actions_iff.mpr ⟨hd, hquery⟩
  refine ⟨?_, ?_⟩
  · by_contra hshape
    exact hno _ (.unmarkedReader haction (by simpa using hshape))
  · rw [← isSpecified_eq_true_iff]
    by_contra hspecified
    exact hno _ (.unspecifiedAction haction (by simpa using hspecified))

/-- A pair in which nothing is found is aligned. -/
theorem aligned_of_not_finds (hmarks : MarkedByName m) (hno : ∀ i, ¬ Finds s m i) :
    Aligned s m where
  complete := by
    rw [List.eq_nil_iff_forall_not_mem]
    exact fun x hx => hno _ (.specificationDefect hx)
  independent := by
    rw [List.eq_nil_iff_forall_not_mem]
    exact fun path hpath => hno _ (.dependency hpath)
  typeNamed := by
    cases htype : m.exposedType with
    | none => exact absurd (.noType htype) (hno _)
    | some type =>
      by_contra hne
      exact hno _ (.wrongType htype fun heq => hne (by rw [heq]))
  actions := fun _ ha => actions_of_not_finds hno ha
  queries := fun _ hq => queries_of_not_finds hmarks hno hq
  methods := fun _ hd hquery => methods_of_not_finds hno hd hquery

/-- The battery finds nothing in a specification and a module just if they are aligned. -/
theorem compare_eq_nil_iff_aligned (s : Specification) (m : SourceModule)
    (hmarks : MarkedByName m) : compare s m = [] ↔ Aligned s m := by
  rw [List.eq_nil_iff_forall_not_mem]
  simp only [mem_compare_iff]
  exact ⟨aligned_of_not_finds hmarks, Aligned.not_finds⟩

/-- A specification with an action and a query. -/
def teamSpecification : Specification :=
  { Specification.blank "specs/Team.concept" with
    name := "Team", purpose := "group users"
    state := Dict.empty.insert "Teams" Dict.empty
    actions := [{ (default : Operation) with name := "create", line := 8 }]
    queries := [{ (default : Operation) with name := "_members", line := 10 }] }

/-- A class with an action that can fail and a query that gives a list. -/
def teamModule : SourceModule :=
  { (default : SourceModule) with
    name := "TeamConcept", exposedType := some "TeamConcept", path := "concepts/TeamConcept.ts"
    methods :=
      [{ (default : Method) with
          name := "create", isAsync := true, line := 3, body := "this.db.insert(name);"
          returnType := "Promise<\x7b team: ID \x7d | \x7b error: string \x7d>" },
        { (default : Method) with
          name := "_members", returnType := "Member[]", isQuery := true, line := 7 }] }

/-- A module with an action and a marked query fits its specification. -/
theorem team_pair_aligned :
    MarkedByName teamModule ∧ compare teamSpecification teamModule = [] ∧
      Aligned teamSpecification teamModule := by
  have hmarks : MarkedByName teamModule := by decide +kernel
  have hnil : compare teamSpecification teamModule = [] := by decide +kernel
  exact ⟨hmarks, hnil,
    (compare_eq_nil_iff_aligned teamSpecification teamModule hmarks).mp hnil⟩

end Concordance.Battery
