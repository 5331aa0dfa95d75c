import Concordance.Alignment.Run
import Concordance.Proofs.Greedy
import Concordance.Proofs.Layout

set_option autoImplicit false

/-!
# The class that is asked for

A specification without an implementation comes with the advice to create a class of a certain name.
That name is the concept's with an ending, and names are compared without the ending. A name that
has it already, in whatever case, has it replaced, and a name that is nothing but the ending gets a
second one; in each case what is added can be taken off again (`baseName_classNameOf`). So a module
that follows the advice realises the concept, and its specification is paired.
-/

namespace Concordance

open Text

variable {n base : Text} {s : Specification} {m : SourceModule}

/-! ## The ending -/

/-- A name loses a proper ending or nothing. -/
theorem baseName_cases (n : Text) :
    baseName n = n ∨ conceptEnding.length < n.length ∧
      baseName n = n.take (n.length - conceptEnding.length) := by
  by_cases h : conceptEnding.length < n.length ∧
      (n.drop (n.length - conceptEnding.length)).map Char.toLower = conceptEnding.map Char.toLower
  · exact .inr ⟨h.1, if_pos h⟩
  · exact .inl (if_neg h)

/-- A name is more than the ending that is cut off. -/
theorem baseName_ne_nil (h : n ≠ []) : baseName n ≠ [] := by
  rcases baseName_cases n with heq | ⟨hlt, heq⟩
  · rwa [heq]
  · rw [heq, ← List.length_pos_iff, List.length_take]
    omega

/-- Cutting the ending off brings no character in. -/
theorem mem_of_mem_baseName {c : Char} (h : c ∈ baseName n) : c ∈ n := by
  rcases baseName_cases n with heq | ⟨-, heq⟩
  · rwa [heq] at h
  · rw [heq] at h
    exact List.mem_of_mem_take h

/-- The ending is cut off where something stands before it. -/
theorem baseName_append (h : base ≠ []) : baseName (base ++ conceptEnding) = base := by
  have hpos : 0 < base.length := List.length_pos_iff.mpr h
  have hkept : (base ++ conceptEnding).length - conceptEnding.length = base.length := by
    rw [List.length_append, Nat.add_sub_cancel]
  have hending : conceptEnding.length < (base ++ conceptEnding).length ∧
      ((base ++ conceptEnding).drop ((base ++ conceptEnding).length - conceptEnding.length)).map
        Char.toLower = conceptEnding.map Char.toLower := by
    rw [hkept, List.drop_left, List.length_append]
    exact ⟨by omega, rfl⟩
  calc baseName (base ++ conceptEnding)
      = (base ++ conceptEnding).take ((base ++ conceptEnding).length - conceptEnding.length) :=
        if_pos hending
    _ = base := by rw [hkept, List.take_left]

/-- A class named for a concept goes by the concept's own base name. -/
theorem baseName_classNameOf (h : n ≠ []) : baseName (classNameOf n) = baseName n :=
  baseName_append (baseName_ne_nil h)

/-- The class of a class is the class. -/
theorem classNameOf_classNameOf (h : n ≠ []) : classNameOf (classNameOf n) = classNameOf n := by
  rw [classNameOf, baseName_classNameOf h, classNameOf]

/-- A class named for a concept without blanks has none in its name. -/
theorem isBlank_of_mem_classNameOf (h : ∀ c ∈ n, isBlank c = false) :
    ∀ c ∈ classNameOf n, isBlank c = false := by
  intro c hc
  rcases List.mem_append.mp hc with hbase | hending
  · exact h c (mem_of_mem_baseName hbase)
  · have hall : (conceptEnding.all fun c => !isBlank c) = true := by decide
    simpa using List.all_eq_true.mp hall c hending

/-- A concept and its class have one key. -/
theorem conceptKey_classNameOf (hne : n ≠ []) (hblank : ∀ c ∈ n, isBlank c = false) :
    conceptKey (classNameOf n) = conceptKey n := by
  unfold conceptKey
  rw [trim_eq_self_of_forall (isBlank_of_mem_classNameOf hblank), trim_eq_self_of_forall hblank,
    baseName_classNameOf hne]

/-! ## Modules that follow the advice -/

/-- The file or the exposed type of a module has the name of a concept's class. -/
def SourceModule.IsNamedFor (m : SourceModule) (concept : Text) : Prop :=
  m.name = classNameOf concept ∨ m.exposedType = some (classNameOf concept)

/-- A module named for a concept realises it. -/
theorem SourceModule.IsNamedFor.realises (h : m.IsNamedFor n) (hne : n ≠ [])
    (hblank : ∀ c ∈ n, isBlank c = false) : m.realises (conceptKey n) = true := by
  have hkey := conceptKey_classNameOf hne hblank
  unfold SourceModule.realises
  rcases h with hname | htype
  · rw [hname, decide_eq_true hkey, Bool.true_or]
  · rw [htype, Option.any_some, decide_eq_true hkey, Bool.or_true]

/-- A specification does not go away empty while a module of its concept is free. -/
theorem Pairing.exists_assigned {specs : List Specification} {modules : List SourceModule}
    {i j : Nat} (hfits : Fits specs modules i j)
    (hfree : IsFreeAt (ofLists specs modules).assigned i j) :
    ∃ k, (ofLists specs modules).assigned[i]? = some (some k) := by
  have hi : i < specs.length := by
    obtain ⟨_, _, hs, -, -⟩ := hfits
    exact (List.getElem?_eq_some_iff.mp hs).1
  have hlength : (ofLists specs modules).assigned.length = specs.length := length_assign
  obtain ⟨given, hgiven⟩ : ∃ given, (ofLists specs modules).assigned[i]? = some given :=
    ⟨_, List.getElem?_eq_getElem (hlength ▸ hi)⟩
  cases given with
  | some k => exact ⟨k, hgiven⟩
  | none =>
    have hcandidate : j ∈ candidates specs modules (ofLists specs modules).assigned i :=
      ⟨hfits, hfree⟩
    rw [(assigned_eq_none_iff hi).mp hgiven] at hcandidate
    exact absurd hcandidate (Set.notMem_empty j)

/-- The fourth step passes the class that is asked for and nothing else. -/
theorem Battery.typeIssues_eq_nil_iff : typeIssues s m = [] ↔ m.exposedType = some s.className := by
  unfold typeIssues
  cases m.exposedType with
  | none => simp
  | some type => simp

/-- The advice on a specification without an implementation asks for the class of its concept. A
module with that name of its file or its exposed type realises the concept, so the specification is
given a module if such a module is left for it; the exposed type passes the comparison just if it
has that name; and a concept with the name of the class has the same class. -/
theorem advised_class_pairs (n : Text) (hne : n ≠ []) (hblank : ∀ c ∈ n, isBlank c = false) :
    (∀ s : Specification, s.name = n → (Run.unimplemented s).issues.filterMap (·.suggestion) =
      ([("Create " : Text) ++ classNameOf n ++ ".ts exporting class " ++ classNameOf n] :
        List Text)) ∧
    (∀ m : SourceModule, m.IsNamedFor n → m.realises (conceptKey n) = true) ∧
    (∀ (specs : List Specification) (modules : List SourceModule) (i j : Nat)
        (s : Specification) (m : SourceModule),
      specs[i]? = some s → s.name = n → modules[j]? = some m → m.IsNamedFor n →
      Pairing.IsFreeAt (Pairing.ofLists specs modules).assigned i j →
      ∃ k, (Pairing.ofLists specs modules).assigned[i]? = some (some k)) ∧
    (∀ (s : Specification) (m : SourceModule), s.name = n →
      (Battery.typeIssues s m = [] ↔ m.exposedType = some (classNameOf n))) ∧
    ∀ s : Specification, s.name = classNameOf n → s.className = classNameOf n := by
  refine ⟨?_, fun m hm => hm.realises hne hblank, ?_, ?_, ?_⟩
  · rintro s rfl
    rfl
  · rintro specs modules i j s m hs rfl hm hnamed hfree
    exact Pairing.exists_assigned ⟨s, m, hs, hm, hnamed.realises hne hblank⟩ hfree
  · rintro s m rfl
    exact Battery.typeIssues_eq_nil_iff
  · intro s hs
    rw [Specification.className, hs, classNameOf_classNameOf hne]

/-- Two specifications of one concept; the class of the later one has its ending in another case. -/
def namesakes : List Specification :=
  [{ Specification.blank "a.md" with name := "CAFÉ" },
    { Specification.blank "b.md" with name := "caféCONCEPT" }]

/-- A module for each of the two. -/
def cafeModules : List SourceModule :=
  [{ (default : SourceModule) with name := "café" },
    { (default : SourceModule) with name := "index", exposedType := some "caféConcept" }]

/-- The earlier specification takes the first module, and the one that was advised is left for the
later one. -/
theorem advised_class_pairs_namesake :
    classNameOf "caféCONCEPT" = ("caféConcept" : Text) ∧
    Pairing.IsFreeAt (Pairing.ofLists namesakes cafeModules).assigned 1 1 ∧
    ∃ k, (Pairing.ofLists namesakes cafeModules).assigned[1]? = some (some k) := by
  have hall : (("caféCONCEPT" : Text).all fun c => !isBlank c) = true := by decide +kernel
  have hblank : ∀ c ∈ ("caféCONCEPT" : Text), isBlank c = false := by
    intro c hc
    simpa using List.all_eq_true.mp hall c hc
  have hclass : classNameOf "caféCONCEPT" = ("caféConcept" : Text) := by decide +kernel
  have hfirst : (Pairing.ofLists namesakes cafeModules).assigned[0]? = some (some 0) := by
    decide +kernel
  have hfree : Pairing.IsFreeAt (Pairing.ofLists namesakes cafeModules).assigned 1 1 := by
    intro k hk
    obtain rfl : k = 0 := by omega
    rw [hfirst]
    decide
  refine ⟨hclass, hfree, ?_⟩
  exact (advised_class_pairs "caféCONCEPT" (by decide) hblank).2.2.1 namesakes cafeModules 1 1 _ _
    rfl rfl rfl (.inr (congrArg some hclass.symm)) hfree

end Concordance
