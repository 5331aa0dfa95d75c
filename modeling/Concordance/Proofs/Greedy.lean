import Concordance.Proofs.Pairing
import Mathlib.Data.List.Sort
import Mathlib.Order.Bounds.Basic

set_option autoImplicit false

/-!
# The pairing is the greedy one

A specification is served after those before it, and it takes the first module of its concept that
is still there. `IsGreedy` says this of a pairing by positions, with no loop and no list of taken
modules. The loop carries that list along; at a position it holds what the earlier positions were
given (`getElem?_assign`), so that each single choice is one of `IsGreedy`. There is no other greedy
pairing, since a choice depends on the earlier ones only.
-/

namespace Concordance.Pairing

/-- The module at a position realises the concept of the specification at a position. -/
def Fits (specs : List Specification) (modules : List SourceModule) (i j : Nat) : Prop :=
  ∃ s d, specs[i]? = some s ∧ modules[j]? = some d ∧ d.realises (conceptKey s.name) = true

/-- A module is given to no specification before the given one. -/
def IsFreeAt (assigned : List (Option Nat)) (i j : Nat) : Prop :=
  ∀ k < i, assigned[k]? ≠ some (some j)

/-- The modules that a specification can choose from: those that realise its concept and are given
to no earlier one. -/
def candidates (specs : List Specification) (modules : List SourceModule)
    (assigned : List (Option Nat)) (i : Nat) : Set Nat :=
  {j | Fits specs modules i j ∧ IsFreeAt assigned i j}

/-- A pairing serves the specifications in order, each with the first of its candidates, and gives
no module twice. -/
structure IsGreedy (specs : List Specification) (modules : List SourceModule) (p : Pairing) :
    Prop where
  one_each : p.assigned.length = specs.length
  takes_least : ∀ i < specs.length, ∀ j,
    p.assigned[i]? = some (some j) ↔ IsLeast (candidates specs modules p.assigned i) j
  takes_none : ∀ i < specs.length,
    p.assigned[i]? = some none ↔ candidates specs modules p.assigned i = ∅
  one_to_one : ∀ i i' j : Nat,
    p.assigned[i]? = some (some j) → p.assigned[i']? = some (some j) → i = i'
  unclaimed_ascending : p.unclaimed.Pairwise (· < ·)
  mem_unclaimed : ∀ j, j ∈ p.unclaimed ↔
    j < modules.length ∧ ∀ i : Nat, p.assigned[i]? ≠ some (some j)
  none_overlooked : ∀ i : Nat, p.assigned[i]? = some none →
    ∀ j ∈ p.unclaimed, ¬ Fits specs modules i j

variable {specs : List Specification} {modules : List SourceModule} {taken : List Nat} {key : Text}

/-! ## One choice -/

/-- The modules of a key that are not taken. -/
def untaken (modules : List SourceModule) (taken : List Nat) (key : Text) : Set Nat :=
  {j | (∃ d, modules[j]? = some d ∧ d.realises key = true) ∧ j ∉ taken}

/-- Nothing is chosen just if no module of the key is left. -/
theorem choose?_eq_none_iff : choose? modules taken key = none ↔ untaken modules taken key = ∅ := by
  unfold choose?
  rw [Option.map_eq_none_iff, List.find?_eq_none, Set.eq_empty_iff_forall_notMem]
  constructor
  · rintro h j ⟨⟨d, hd, hkey⟩, hfresh⟩
    apply h (j, d) (Text.mem_numberFrom_zero.mpr hd)
    simp [hkey, hfresh]
  · rintro h ⟨j, d⟩ hmem hpred
    simp only [Bool.and_eq_true, Bool.not_eq_true', decide_eq_false_iff_not] at hpred
    exact h j ⟨⟨d, Text.mem_numberFrom_zero.mp hmem, hpred.2⟩, hpred.1⟩

/-- What is chosen is the first module of the key that is left. -/
theorem isLeast_of_choose? {j : Nat} (h : choose? modules taken key = some j) :
    IsLeast (untaken modules taken key) j := by
  obtain ⟨hfresh, hd⟩ := of_choose?_eq_some h
  refine ⟨⟨hd, hfresh⟩, ?_⟩
  rintro k ⟨⟨d, hk, hkey⟩, hkfresh⟩
  by_contra hlt
  unfold choose? at h
  obtain ⟨⟨_, e⟩, hfind, rfl⟩ := Option.map_eq_some_iff.mp h
  obtain ⟨-, i, hi, hget, hbefore⟩ := List.find?_eq_some_iff_getElem.mp hfind
  -- The pair of a position and its module stands at that position, so the search met `k` first.
  have hnumbered : ∀ (n : Nat) (hn : n < (Text.numberFrom 0 modules).length),
      ∃ d, (Text.numberFrom 0 modules)[n] = (n, d) ∧ modules[n]? = some d := by
    intro n hn
    simp only [Text.numberFrom_eq_zipIdx, List.length_map, List.length_zipIdx] at hn
    exact ⟨modules[n], by simp [Text.numberFrom_eq_zipIdx], by simp [hn]⟩
  obtain ⟨e', he', -⟩ := hnumbered i hi
  obtain rfl : i = _ := congrArg Prod.fst (he'.symm.trans hget)
  obtain ⟨d', hd', hget'⟩ := hnumbered k (by omega)
  obtain rfl : d' = d := Option.some.inj (hget'.symm.trans hk)
  have hpassed := hbefore k (by omega)
  rw [hd'] at hpassed
  simp [hkfresh, hkey] at hpassed

/-! ## The loop of choices -/

/-- What is given at a position is chosen with all that was given before it out of the way. -/
theorem getElem?_assign (i : Nat) :
    (assign modules taken specs)[i]? = specs[i]?.map fun s =>
      choose? modules (taken ++ ((assign modules taken specs).take i).filterMap id)
        (conceptKey s.name) := by
  induction specs generalizing taken i with
  | nil => simp [assign]
  | cons s rest ih =>
    cases i with
    | zero => simp [assign]
    | succ i =>
      have hfront : ∀ (chosen : Option Nat) (l : List (Option Nat)),
          taken ++ (chosen :: l).filterMap id = taken ++ chosen.toList ++ l.filterMap id := by
        intro chosen l
        cases chosen <;> simp
      simp only [assign, List.getElem?_cons_succ, List.take_succ_cons, hfront]
      exact ih i

/-- What was given before a position is what is not free there. -/
theorem mem_given_iff {assigned : List (Option Nat)} {i j : Nat} :
    j ∈ (assigned.take i).filterMap id ↔ ¬ IsFreeAt assigned i j := by
  have hmem : j ∈ (assigned.take i).filterMap id ↔
      ∃ k : Nat, (assigned.take i)[k]? = some (some j) := by
    rw [← List.mem_iff_getElem?]
    simp
  rw [hmem]
  unfold IsFreeAt
  push Not
  simp only [List.getElem?_take]
  constructor
  · rintro ⟨k, hk⟩
    split at hk
    · next hlt => exact ⟨k, hlt, hk⟩
    · cases hk
  · rintro ⟨k, hlt, hk⟩
    exact ⟨k, by rw [if_pos hlt, hk]⟩

/-- The candidates of a specification are what the loop looks at when it comes to it. -/
theorem candidates_eq_untaken {s : Specification} {assigned : List (Option Nat)} {i : Nat}
    (hs : specs[i]? = some s) :
    candidates specs modules assigned i =
      untaken modules ((assigned.take i).filterMap id) (conceptKey s.name) := by
  ext j
  constructor
  · rintro ⟨⟨_, d, hs', hd, hkey⟩, hfree⟩
    obtain rfl := Option.some.inj (hs.symm.trans hs')
    exact ⟨⟨d, hd, hkey⟩, fun hgiven => mem_given_iff.mp hgiven hfree⟩
  · rintro ⟨⟨d, hd, hkey⟩, hfresh⟩
    exact ⟨⟨s, d, hs, hd, hkey⟩, not_not.mp fun hfree => hfresh (mem_given_iff.mpr hfree)⟩

/-- Two greedy choices with the same past are the same. -/
theorem getElem?_eq_of_candidates {p q : Pairing} {i : Nat} (hp : IsGreedy specs modules p)
    (hq : IsGreedy specs modules q) (hi : i < specs.length)
    (hpast : candidates specs modules p.assigned i = candidates specs modules q.assigned i) :
    p.assigned[i]? = q.assigned[i]? := by
  have hlt : i < p.assigned.length := by rw [hp.one_each]; exact hi
  obtain ⟨given, hgiven⟩ : ∃ given, p.assigned[i]? = some given := ⟨_, List.getElem?_eq_getElem hlt⟩
  cases given with
  | none =>
    have hnone := (hp.takes_none i hi).mp hgiven
    rw [hpast] at hnone
    rw [hgiven, (hq.takes_none i hi).mpr hnone]
  | some j =>
    have hleast := (hp.takes_least i hi j).mp hgiven
    rw [hpast] at hleast
    rw [hgiven, (hq.takes_least i hi j).mpr hleast]

/-- Two greedy pairings of the same lists are equal. -/
theorem IsGreedy.eq {p q : Pairing} (hp : IsGreedy specs modules p)
    (hq : IsGreedy specs modules q) : p = q := by
  have hassigned : ∀ i : Nat, p.assigned[i]? = q.assigned[i]? := by
    intro i
    induction i using Nat.strongRecOn with
    | ind i ih =>
      by_cases hi : i < specs.length
      · apply getElem?_eq_of_candidates hp hq hi
        unfold candidates IsFreeAt
        ext j
        refine and_congr_right fun _ => forall_congr' fun k => forall_congr' fun hk => ?_
        rw [ih k hk]
      · rw [List.getElem?_eq_none (by rw [hp.one_each]; omega),
          List.getElem?_eq_none (by rw [hq.one_each]; omega)]
  have hunclaimed : p.unclaimed = q.unclaimed := by
    apply hp.unclaimed_ascending.eq_of_mem_iff hq.unclaimed_ascending
    intro j
    rw [hp.mem_unclaimed, hq.mem_unclaimed]
    simp only [hassigned]
  obtain ⟨pa, pu⟩ := p
  obtain ⟨qa, qu⟩ := q
  rw [Pairing.mk.injEq]
  exact ⟨List.ext_getElem? hassigned, hunclaimed⟩

/-! ## The pairing that is computed -/

/-- A specification is given what is chosen when all before it have been served. -/
theorem getElem?_assigned {i : Nat} {s : Specification} (hs : specs[i]? = some s) :
    (ofLists specs modules).assigned[i]? =
      some (choose? modules (((ofLists specs modules).assigned.take i).filterMap id)
        (conceptKey s.name)) := by
  have h : (assign modules [] specs)[i]? = specs[i]?.map fun s =>
      choose? modules ([] ++ ((assign modules [] specs).take i).filterMap id)
        (conceptKey s.name) := getElem?_assign i
  rw [hs, List.nil_append] at h
  exact h

/-- A specification is given the first of its candidates. -/
theorem assigned_eq_some_iff {i j : Nat} (hi : i < specs.length) :
    (ofLists specs modules).assigned[i]? = some (some j) ↔
      IsLeast (candidates specs modules (ofLists specs modules).assigned i) j := by
  have hs : specs[i]? = some specs[i] := List.getElem?_eq_getElem hi
  rw [getElem?_assigned hs, candidates_eq_untaken hs, Option.some.injEq]
  constructor
  · exact isLeast_of_choose?
  · intro hj
    cases hchosen : choose? modules (((ofLists specs modules).assigned.take i).filterMap id)
        (conceptKey specs[i].name) with
    | none =>
      have hmem := hj.1
      rw [choose?_eq_none_iff.mp hchosen] at hmem
      exact absurd hmem (Set.notMem_empty j)
    | some k => rw [(isLeast_of_choose? hchosen).unique hj]

/-- A specification goes without a module just if it has no candidate. -/
theorem assigned_eq_none_iff {i : Nat} (hi : i < specs.length) :
    (ofLists specs modules).assigned[i]? = some none ↔
      candidates specs modules (ofLists specs modules).assigned i = ∅ := by
  have hs : specs[i]? = some specs[i] := List.getElem?_eq_getElem hi
  rw [getElem?_assigned hs, candidates_eq_untaken hs, Option.some.injEq, choose?_eq_none_iff]

/-- Only positions of specifications are given something. -/
theorem lt_length_of_assigned {i : Nat} {given : Option Nat}
    (h : (ofLists specs modules).assigned[i]? = some given) : i < specs.length := by
  have hlength : (ofLists specs modules).assigned.length = specs.length := length_assign
  rw [← hlength]
  exact (List.getElem?_eq_some_iff.mp h).1

/-- Of two specifications with one module, the later one would not have had it to choose. -/
theorem eq_of_assigned {i i' j : Nat} (h : (ofLists specs modules).assigned[i]? = some (some j))
    (h' : (ofLists specs modules).assigned[i']? = some (some j)) : i = i' := by
  have hfree := ((assigned_eq_some_iff (lt_length_of_assigned h)).mp h).1.2
  have hfree' := ((assigned_eq_some_iff (lt_length_of_assigned h')).mp h').1.2
  rcases Nat.lt_trichotomy i i' with hlt | heq | hgt
  · exact absurd h (hfree' i hlt)
  · exact heq
  · exact absurd h' (hfree i' hgt)

/-- The pairing that the loop makes is greedy. -/
theorem isGreedy_ofLists (specs : List Specification) (modules : List SourceModule) :
    IsGreedy specs modules (ofLists specs modules) := by
  have hunclaimed : ∀ j, j ∈ (ofLists specs modules).unclaimed ↔
      j < modules.length ∧ ∀ i : Nat, (ofLists specs modules).assigned[i]? ≠ some (some j) := by
    intro j
    rw [mem_unclaimed_iff, mem_claimed_iff, List.mem_iff_getElem?, not_exists]
  refine ⟨length_assign, fun i hi j => assigned_eq_some_iff hi, fun i hi => assigned_eq_none_iff hi,
    fun i i' j => eq_of_assigned, List.pairwise_lt_range.filter _, hunclaimed, ?_⟩
  intro i h j hj hfits
  have hcandidate : j ∈ candidates specs modules (ofLists specs modules).assigned i :=
    ⟨hfits, fun k _ => ((hunclaimed j).mp hj).2 k⟩
  rw [(assigned_eq_none_iff (lt_length_of_assigned h)).mp h] at hcandidate
  exact hcandidate

/-- The pairing of specifications with modules is the one greedy pairing: each specification in
order is given the first module that realises its concept and that no earlier one has, and nothing
just if there is none; no module is given twice; the unclaimed modules are those given to none, in
order; and none of them realises the concept of a specification that went away empty. -/
theorem isGreedy_iff_eq_ofLists (specs : List Specification) (modules : List SourceModule)
    (p : Pairing) : IsGreedy specs modules p ↔ p = ofLists specs modules := by
  constructor
  · intro hp
    exact hp.eq (isGreedy_ofLists specs modules)
  · rintro rfl
    exact isGreedy_ofLists specs modules

end Concordance.Pairing
