import Concordance.Alignment.Pairing
import Mathlib.Data.List.Nodup

set_option autoImplicit false

/-!
# A pairing shares out the modules

Each specification takes a module that exists and that no earlier one has taken. So the modules that
were taken are pairwise different, and together with those that were left they are all modules, each
once. The loop over the specifications carries the list of taken modules: what it gives later is
disjoint from that list.
-/

namespace Concordance

namespace Text

/-- Numbering is pairing with positions, with the position first. -/
theorem numberFrom_eq_zipIdx {α : Type} (start : Nat) (l : List α) :
    numberFrom start l = (l.zipIdx start).map Prod.swap := by
  induction l generalizing start with
  | nil => rfl
  | cons a rest ih => simp [numberFrom, ih]

/-- A numbered member stands at its position. -/
@[simp, grind =] theorem mem_numberFrom_zero {α : Type} {l : List α} {i : Nat} {a : α} :
    (i, a) ∈ numberFrom 0 l ↔ l[i]? = some a := by
  rw [numberFrom_eq_zipIdx, List.mem_map]
  constructor
  · rintro ⟨⟨b, j⟩, hmem, hswap⟩
    obtain ⟨rfl, rfl⟩ : j = i ∧ b = a := by simpa using hswap
    exact List.mem_zipIdx_iff_getElem?.mp hmem
  · intro h
    exact ⟨(a, i), List.mem_zipIdx_iff_getElem?.mpr h, rfl⟩

end Text

namespace Pairing

/-- The modules that specifications took, in the order of the specifications. -/
def claimed (p : Pairing) : List Nat := p.assigned.filterMap id

variable {modules : List SourceModule} {taken : List Nat} {specs : List Specification}

/-- A module that is chosen exists, realises the concept, and was not taken before. -/
theorem of_choose?_eq_some {key : Text} {i : Nat} (h : choose? modules taken key = some i) :
    i ∉ taken ∧ ∃ d, modules[i]? = some d ∧ d.realises key = true := by
  unfold choose? at h
  obtain ⟨⟨j, d⟩, hfind, rfl⟩ := Option.map_eq_some_iff.mp h
  have hmem := Text.mem_numberFrom_zero.mp (List.mem_of_find?_eq_some hfind)
  have hpred := List.find?_some hfind
  simp only [Bool.and_eq_true, Bool.not_eq_true', decide_eq_false_iff_not] at hpred
  exact ⟨hpred.1, d, hmem, hpred.2⟩

/-- Every specification is assigned something. -/
@[simp] theorem length_assign : (assign modules taken specs).length = specs.length := by
  induction specs generalizing taken with
  | nil => rfl
  | cons s rest ih => simp [assign, ih]

/-- What is assigned exists and was not taken before. -/
theorem of_mem_assign {i : Nat} (h : some i ∈ assign modules taken specs) :
    i ∉ taken ∧ i < modules.length := by
  induction specs generalizing taken with
  | nil => simp [assign] at h
  | cons s rest ih =>
    simp only [assign, List.mem_cons] at h
    rcases h with h | h
    · obtain ⟨hfresh, d, hd, -⟩ := of_choose?_eq_some h.symm
      exact ⟨hfresh, (List.getElem?_eq_some_iff.mp hd).1⟩
    · obtain ⟨hfresh, hlt⟩ := ih h
      exact ⟨fun hmem => hfresh (List.mem_append_left _ hmem), hlt⟩

/-- No module is assigned twice. -/
theorem nodup_assign : ((assign modules taken specs).filterMap id).Nodup := by
  induction specs generalizing taken with
  | nil => exact List.nodup_nil
  | cons s rest ih =>
    simp only [assign]
    cases hchosen : choose? modules taken (conceptKey s.name) with
    | none => simpa using ih
    | some i =>
      rw [List.filterMap_cons_some (by rfl), List.nodup_cons]
      refine ⟨?_, ih⟩
      intro hmem
      -- The rest of the loop runs with `i` among the taken modules, so it cannot give it again.
      have hlater : some i ∈ assign modules (taken ++ (some i).toList) rest := by
        simpa using hmem
      exact (of_mem_assign hlater).1 (by simp)

/-- A module is claimed just if it is assigned to some specification. -/
theorem mem_claimed_iff {p : Pairing} {i : Nat} : i ∈ p.claimed ↔ some i ∈ p.assigned := by
  simp [claimed]

/-- The modules that are left are those that exist and are not claimed. -/
theorem mem_unclaimed_iff {i : Nat} :
    i ∈ (ofLists specs modules).unclaimed ↔
      i < modules.length ∧ i ∉ (ofLists specs modules).claimed := by
  rw [mem_claimed_iff]
  simp [ofLists]

/-- Every module is claimed once or left once. -/
theorem perm_claimed_unclaimed (specs : List Specification) (modules : List SourceModule) :
    ((ofLists specs modules).claimed ++ (ofLists specs modules).unclaimed).Perm
      (List.range modules.length) := by
  have hclaimed : (ofLists specs modules).claimed.Nodup := nodup_assign
  have hunclaimed : (ofLists specs modules).unclaimed.Nodup :=
    List.nodup_range.sublist List.filter_sublist
  have hapart : ∀ i ∈ (ofLists specs modules).claimed,
      ∀ j ∈ (ofLists specs modules).unclaimed, i ≠ j := by
    rintro i hi j hj rfl
    exact (mem_unclaimed_iff.mp hj).2 hi
  rw [List.perm_ext_iff_of_nodup (List.nodup_append.mpr ⟨hclaimed, hunclaimed, hapart⟩)
    List.nodup_range]
  intro i
  rw [List.mem_append, mem_unclaimed_iff, List.mem_range]
  constructor
  · rintro (hi | ⟨hi, -⟩)
    · exact (of_mem_assign (mem_claimed_iff.mp hi)).2
    · exact hi
  · intro hi
    by_cases hmem : i ∈ (ofLists specs modules).claimed
    · exact Or.inl hmem
    · exact Or.inr ⟨hi, hmem⟩

end Pairing

end Concordance
