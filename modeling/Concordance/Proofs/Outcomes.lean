import Concordance.Proofs.Dictionaries
import Concordance.Proofs.Nesting
import Concordance.Specification.Signature
import Mathlib.Data.List.GetD
import Mathlib.Data.List.Induction

set_option autoImplicit false

/-!
# The outcomes of an operation and their keys

The alternatives of an operation are kept by key. The key of an alternative is its label, or its
position if it has none, and where that is taken already the position is appended. Keys with an
appended position never meet each other, nor do they meet a bare position. But they can meet a label
that is written out, and then an earlier alternative is lost. An alternative is displaced in just
this way (`Displaces`), and nothing is lost if none is.
-/

namespace Concordance

namespace Text

/-- Different numbers have different digits. -/
theorem ofNat_inj {m n : Nat} (h : ofNat m = ofNat n) : m = n := by
  have hread := congrArg (Nat.ofDigitChars 10 · 0) h
  simpa [ofNat, Nat.ofDigitChars_toDigits] using hread

/-- The digits of a number hold no underscore. -/
theorem underscore_not_mem_ofNat (n : Nat) : '_' ∉ ofNat n := by
  intro h
  have hdigit := Nat.isDigit_of_mem_toDigits (by decide) (by decide) h
  revert hdigit
  decide

/-- A text with a number appended. -/
def suffixed (t : Text) (n : Nat) : Text := t ++ "_" ++ ofNat n

/-- The appended number is what follows the last underscore. -/
theorem eq_of_suffixed_eq {s t : Text} {m n : Nat} (h : suffixed s m = suffixed t n) : m = n := by
  have hcut : ∀ (u : Text) (k : Nat), cutAt '_' (suffixed u k).reverse =
      some ((ofNat k).reverse, u.reverse) := by
    intro u k
    have hreverse : (suffixed u k).reverse = (ofNat k).reverse ++ '_' :: u.reverse := by
      simp [suffixed]
    rw [hreverse]
    exact cutAt_append (by simpa using underscore_not_mem_ofNat k) _
  have hboth := hcut s m
  rw [h, hcut t n] at hboth
  have hdigits : (ofNat n).reverse = (ofNat m).reverse := (Prod.mk.inj (Option.some.inj hboth)).1
  exact (ofNat_inj (List.reverse_inj.mp hdigits)).symm

/-- A key with a number appended is not the digits of a number. -/
theorem suffixed_ne_ofNat (t : Text) (m n : Nat) : suffixed t m ≠ ofNat n := by
  intro h
  apply underscore_not_mem_ofNat n
  rw [← h]
  simp [suffixed]

end Text

namespace Signature

open Text

/-- The text in which a line describes the outcomes. -/
def outcomeText? (line : Text) : Option Text := do
  let (_, tail) ← cutAt '(' line
  let (_, rest) ← enclosed tail
  outcomes? (trimStart rest)

/-- The trimmed texts between the bars outside of brackets. -/
def parts (text : Text) : List Text := (splitTop '|' text).map trim

/-- The parts that say something. -/
def alternatives (text : Text) : List Text := (parts text).filter fun part => !part.isEmpty

/-- The label of an outcome, or else its position. -/
def labelAt (i : Nat) (outcome : Text) : Text := (outcomeLabel? outcome).getD (ofNat i)

/-- The outcomes that trimmed parts give. -/
def outcomesOf (ps : List Text) : Dict Text := (numberFrom 0 ps).foldl addOutcome .empty

/-- The key of a further outcome. -/
def keyIn (found : Dict Text) (i : Nat) (outcome : Text) : Text :=
  if found.contains (labelAt i outcome) then suffixed (labelAt i outcome) i else labelAt i outcome

/-- The part at `k` takes the key of the one at `j`: its label is taken, and with the position
appended it is the label that the earlier part has. -/
def Displaces (ps : List Text) (j k : Nat) : Prop :=
  j < k ∧ ps.getD k [] ≠ [] ∧
    (outcomesOf (ps.take k)).contains (labelAt k (ps.getD k [])) = true ∧
    outcomeLabel? (ps.getD j []) = some (suffixed (labelAt k (ps.getD k [])) k)

instance (ps : List Text) (j k : Nat) : Decidable (Displaces ps j k) :=
  inferInstanceAs (Decidable (_ ∧ _))

/-! ## One part after the other -/

section Parts

variable {ps : List Text} {p : Text} {i j k : Nat}

/-- An outcome is added trimmed, whether or not it is given so. -/
theorem addOutcome_trim (found : Dict Text) (i : Nat) (t : Text) :
    addOutcome found (i, trim t) = addOutcome found (i, t) := by
  simp only [addOutcome, trim_trim]

/-- The outcomes of a text are those of its trimmed parts. -/
theorem outputs_eq_outcomesOf (text : Text) : outputs text = outcomesOf (parts text) := by
  have hnumber : ∀ (n : Nat) (ts : List Text), numberFrom n (ts.map trim) =
      (numberFrom n ts).map fun part => (part.1, trim part.2) := by
    intro n ts
    induction ts generalizing n with
    | nil => rfl
    | cons t rest ih => simp [numberFrom, ih]
  unfold outputs outcomesOf parts
  rw [hnumber, List.foldl_map]
  simp only [addOutcome_trim]

/-- The last part is added to the outcomes of the others. -/
theorem outcomesOf_concat (ps : List Text) (p : Text) :
    outcomesOf (ps ++ [p]) = addOutcome (outcomesOf ps) (ps.length, p) := by
  simp [outcomesOf, numberFrom]

/-- An empty part adds no outcome. -/
@[simp] theorem outcomesOf_concat_nil (ps : List Text) :
    outcomesOf (ps ++ [[]]) = outcomesOf ps := by
  rw [outcomesOf_concat]
  rfl

/-- A part that is not empty is added under its key. -/
theorem outcomesOf_concat_of_ne_nil (htrim : trim p = p) (hne : p ≠ []) :
    outcomesOf (ps ++ [p]) =
      (outcomesOf ps).insert (keyIn (outcomesOf ps) ps.length p) p := by
  rw [outcomesOf_concat]
  simp [addOutcome, htrim, hne, keyIn, labelAt, suffixed]

/-- The last part stands behind the others. -/
theorem getD_concat_length (ps : List Text) (p : Text) : (ps ++ [p]).getD ps.length [] = p := by
  simp

/-! ## Keys -/

/-- A key is a label or a label with its position, of one of the parts. -/
theorem exists_of_contains (htrim : ∀ p ∈ ps, trim p = p) {key : Text}
    (h : (outcomesOf ps).contains key = true) :
    ∃ j < ps.length, key = labelAt j (ps.getD j []) ∨
      key = suffixed (labelAt j (ps.getD j [])) j := by
  induction ps using List.reverseRecOn with
  | nil => cases h
  | append_singleton ps p ih =>
    have hrest := ih fun q hq => htrim q (List.mem_append_left _ hq)
    have hlift : (outcomesOf ps).contains key = true → ∃ j < (ps ++ [p]).length,
        key = labelAt j ((ps ++ [p]).getD j []) ∨
          key = suffixed (labelAt j ((ps ++ [p]).getD j [])) j := by
      intro hfound
      obtain ⟨j, hj, hkey⟩ := hrest hfound
      rw [← List.getD_append ps [p] [] j hj] at hkey
      exact ⟨j, by simp; omega, hkey⟩
    by_cases hne : p = []
    · rw [hne, outcomesOf_concat_nil] at h
      exact hlift h
    · rw [outcomesOf_concat_of_ne_nil (htrim p (by simp)) hne, Dict.contains_insert] at h
      rcases h with rfl | h
      · refine ⟨ps.length, by simp, ?_⟩
        rw [getD_concat_length]
        unfold keyIn
        split
        · exact Or.inr rfl
        · exact Or.inl rfl
      · exact hlift h

/-- Every label is taken, by its own part or by an earlier one. -/
theorem contains_labelAt (htrim : ∀ p ∈ ps, trim p = p) (hj : j < ps.length)
    (hne : ps.getD j [] ≠ []) : (outcomesOf ps).contains (labelAt j (ps.getD j [])) = true := by
  induction ps using List.reverseRecOn with
  | nil => simp at hj
  | append_singleton ps p ih =>
    have hrest := ih fun q hq => htrim q (List.mem_append_left _ hq)
    by_cases hlast : j = ps.length
    · subst hlast
      rw [getD_concat_length] at hne ⊢
      rw [outcomesOf_concat_of_ne_nil (htrim p (by simp)) hne, Dict.contains_insert]
      unfold keyIn
      split
      · next htaken => exact Or.inr htaken
      · exact Or.inl rfl
    · have hlt : j < ps.length := by
        rw [List.length_append, List.length_singleton] at hj
        omega
      rw [List.getD_append _ _ _ _ hlt] at hne ⊢
      have hfound := hrest hlt hne
      by_cases hp : p = []
      · rw [hp, outcomesOf_concat_nil]
        exact hfound
      · rw [outcomesOf_concat_of_ne_nil (htrim p (by simp)) hp, Dict.contains_insert]
        exact Or.inr hfound

/-- A label with a later position appended is a key only if it is a label as well. -/
theorem contains_suffixed_iff (htrim : ∀ p ∈ ps, trim p = p) (label : Text) :
    (outcomesOf ps).contains (suffixed label ps.length) = true ↔
      ∃ j < ps.length, outcomeLabel? (ps.getD j []) = some (suffixed label ps.length) := by
  constructor
  · intro h
    obtain ⟨j, hj, hkey | hkey⟩ := exists_of_contains htrim h
    · refine ⟨j, hj, ?_⟩
      unfold labelAt at hkey
      cases hlabel : outcomeLabel? (ps.getD j []) with
      | none =>
        rw [hlabel] at hkey
        exact absurd hkey (suffixed_ne_ofNat label ps.length j)
      | some written =>
        rw [hlabel] at hkey
        rw [hkey]
        rfl
    · have := eq_of_suffixed_eq hkey
      omega
  · rintro ⟨j, hj, hlabel⟩
    have hne : ps.getD j [] ≠ [] := by
      intro hnil
      rw [hnil] at hlabel
      cases hlabel
    have htaken := contains_labelAt htrim hj hne
    unfold labelAt at htaken
    rwa [hlabel] at htaken

/-! ## What is displaced -/

/-- Among the other parts one displaces another just as without the last one. -/
theorem displaces_concat_of_lt (p : Text) (hk : k < ps.length) :
    Displaces (ps ++ [p]) j k ↔ Displaces ps j k := by
  unfold Displaces
  rw [List.getD_append _ _ _ _ hk, List.take_append_of_le_length (Nat.le_of_lt hk)]
  refine and_congr_right fun hjk => ?_
  rw [List.getD_append _ _ _ _ (Nat.lt_trans hjk hk)]

/-- Only a part displaces another. -/
theorem lt_length_of_displaces (h : Displaces ps j k) : k < ps.length := by
  by_contra hk
  exact h.2.1 (List.getD_eq_default _ _ (by omega))

/-- A part displaces an earlier one just if its key is taken. -/
theorem exists_displaces_concat_iff (htrim : ∀ q ∈ ps, trim q = q) (hne : p ≠ []) :
    (∃ j, Displaces (ps ++ [p]) j ps.length) ↔
      (outcomesOf ps).contains (keyIn (outcomesOf ps) ps.length p) = true := by
  have htake : (ps ++ [p]).take ps.length = ps := by simp
  unfold Displaces keyIn
  rw [getD_concat_length, htake]
  constructor
  · rintro ⟨j, hj, -, htaken, hlabel⟩
    rw [List.getD_append _ _ _ _ hj] at hlabel
    rw [if_pos htaken]
    exact (contains_suffixed_iff htrim _).mpr ⟨j, hj, hlabel⟩
  · intro hkey
    split at hkey
    · next htaken =>
      obtain ⟨j, hj, hlabel⟩ := (contains_suffixed_iff htrim _).mp hkey
      exact ⟨j, hj, hne, htaken, by rwa [List.getD_append _ _ _ _ hj]⟩
    · next hfree => exact absurd hkey hfree

/-- No part is displaced just if none of the others is and the last one has a free key. -/
theorem forall_not_displaces_concat_iff (htrim : ∀ q ∈ ps, trim q = q) (p : Text) :
    (∀ j k, ¬ Displaces (ps ++ [p]) j k) ↔
      (∀ j k, ¬ Displaces ps j k) ∧
        (p ≠ [] → (outcomesOf ps).contains (keyIn (outcomesOf ps) ps.length p) = false) := by
  constructor
  · intro h
    refine ⟨fun j k hd => ?_, fun hne => ?_⟩
    · exact h j k ((displaces_concat_of_lt p (lt_length_of_displaces hd)).mpr hd)
    · rw [← Bool.not_eq_true, ← exists_displaces_concat_iff htrim hne]
      rintro ⟨j, hd⟩
      exact h j _ hd
  · rintro ⟨hbefore, hlast⟩ j k hd
    have hk := lt_length_of_displaces hd
    rw [List.length_append, List.length_singleton] at hk
    by_cases heq : k = ps.length
    · subst heq
      have hne : p ≠ [] := by
        have := hd.2.1
        rwa [getD_concat_length] at this
      have htaken := (exists_displaces_concat_iff htrim hne).mp ⟨j, hd⟩
      rw [hlast hne] at htaken
      cases htaken
    · exact hbefore j k ((displaces_concat_of_lt p (by omega)).mp hd)

/-! ## What is kept -/

/-- The values of a dictionary, in the order of their keys. -/
def values (d : Dict Text) : List Text := d.entries.map Prod.snd

/-- The parts that are not empty are those of the others and the last one, if it is not. -/
theorem filter_concat (ps : List Text) (p : Text) :
    (ps ++ [p]).filter (fun q => !q.isEmpty) =
      ps.filter (fun q => !q.isEmpty) ++ if p = [] then [] else [p] := by
  rw [List.filter_append]
  by_cases hp : p = [] <;> simp [hp]

/-- Every outcome that is kept is a part that is not empty. -/
theorem subperm_values_outcomesOf (htrim : ∀ p ∈ ps, trim p = p) :
    (values (outcomesOf ps)).Subperm (ps.filter fun q => !q.isEmpty) := by
  induction ps using List.reverseRecOn with
  | nil => exact List.Subperm.refl _
  | append_singleton ps p ih =>
    have hrest := ih fun q hq => htrim q (List.mem_append_left _ hq)
    rw [filter_concat]
    by_cases hp : p = []
    · rw [hp, outcomesOf_concat_nil, if_pos rfl, List.append_nil]
      exact hrest
    · rw [outcomesOf_concat_of_ne_nil (htrim p (by simp)) hp, if_neg hp]
      obtain ⟨kept, hperm, hsub⟩ := Dict.subperm_entries_insert (outcomesOf ps)
        (keyIn (outcomesOf ps) ps.length p) p
      have hinsert : (values ((outcomesOf ps).insert
          (keyIn (outcomesOf ps) ps.length p) p)).Subperm (p :: values (outcomesOf ps)) :=
        ⟨kept.map Prod.snd, hperm.map Prod.snd, hsub.map Prod.snd⟩
      exact (hinsert.trans ((List.subperm_cons p).mpr hrest)).trans
        (List.perm_append_singleton p _).symm.subperm

/-- All parts are kept just if none displaces another. -/
theorem perm_values_outcomesOf_iff (htrim : ∀ p ∈ ps, trim p = p) :
    (values (outcomesOf ps)).Perm (ps.filter fun q => !q.isEmpty) ↔
      ∀ j k, ¬ Displaces ps j k := by
  induction ps using List.reverseRecOn with
  | nil =>
    constructor
    · intro _ j k hd
      exact absurd (lt_length_of_displaces hd) (Nat.not_lt_zero k)
    · intro _
      exact List.Perm.refl _
  | append_singleton ps p ih =>
    have hps : ∀ q ∈ ps, trim q = q := fun q hq => htrim q (List.mem_append_left _ hq)
    rw [filter_concat, forall_not_displaces_concat_iff hps, ← ih hps]
    by_cases hp : p = []
    · simp [hp]
    · rw [outcomesOf_concat_of_ne_nil (htrim p (by simp)) hp, if_neg hp]
      cases hkey : (outcomesOf ps).contains (keyIn (outcomesOf ps) ps.length p) with
      | false =>
        have hinsert : (values ((outcomesOf ps).insert
            (keyIn (outcomesOf ps) ps.length p) p)).Perm (p :: values (outcomesOf ps)) :=
          (Dict.perm_entries_insert hkey p).map Prod.snd
        rw [hinsert.congr_left, (List.perm_append_singleton p _).congr_right, List.perm_cons]
        exact (and_iff_left fun _ => rfl).symm
      | true =>
        -- The number of entries stays, while there is one part more.
        have hlength : (values ((outcomesOf ps).insert
            (keyIn (outcomesOf ps) ps.length p) p)).length = (values (outcomesOf ps)).length := by
          unfold values
          rw [List.length_map, List.length_map, Dict.length_entries_insert hkey]
        have hle := (subperm_values_outcomesOf hps).length_le
        constructor
        · intro hperm
          have := hperm.length_eq
          rw [List.length_append, List.length_singleton] at this
          omega
        · rintro ⟨-, hfree⟩
          cases hfree hp

end Parts

/-- The parts of a text are trimmed. -/
theorem trim_of_mem_parts {text part : Text} (h : part ∈ parts text) : trim part = part := by
  obtain ⟨t, -, rfl⟩ := List.mem_map.mp h
  exact trim_trim t

/-- An operation has the outcomes of the text behind its arrow. -/
theorem exists_outcomeText? {line : Text} {number : Nat} {op : Operation}
    (h : parse? line number = some op) :
    ∃ text, outcomeText? line = some text ∧ op.outputs = outputs text := by
  simp only [parse?, Option.bind_eq_bind, Option.bind_eq_some_iff, Option.some.injEq] at h
  obtain ⟨cut, hcut, inner, hinner, text, htext, name, -, rfl⟩ := h
  refine ⟨text, ?_, rfl⟩
  simp only [outcomeText?, Option.bind_eq_bind, Option.bind_eq_some_iff]
  exact ⟨cut, hcut, inner, hinner, htext⟩

/-- The outputs of an operation are alternatives of its outcome text, each at most as often as it is
written there. They are all of them just if none is displaced, that is, if no alternative has a
label that is taken and that is written out with its position by an earlier alternative. -/
theorem outcomes_kept_iff_none_displaced (line : Text) (number : Nat) (op : Operation)
    (h : parse? line number = some op) :
    ∃ text, outcomeText? line = some text ∧
      (values op.outputs).Subperm (alternatives text) ∧
      (op.outputs.entries.length = (alternatives text).length ∧
          (values op.outputs).Perm (alternatives text) ↔
        ∀ j k, ¬ Displaces (parts text) j k) := by
  obtain ⟨text, htext, houtputs⟩ := exists_outcomeText? h
  have htrim : ∀ part ∈ parts text, trim part = part := fun part hpart => trim_of_mem_parts hpart
  refine ⟨text, htext, ?_, ?_⟩
  · rw [houtputs, outputs_eq_outcomesOf]
    exact subperm_values_outcomesOf htrim
  · rw [houtputs, outputs_eq_outcomesOf, ← perm_values_outcomesOf_iff htrim]
    refine ⟨fun hkept => hkept.2, fun hperm => ⟨?_, hperm⟩⟩
    have hlength := hperm.length_eq
    rwa [values, List.length_map] at hlength

/-- A line with a label that occurs twice, next to an outcome without a label. -/
def repeatedLabel : Text := "find (key: Key) : \x7bhit: Item\x7d | \x7bhit: Alias\x7d | Nothing"

/-- Three outcomes, two of which have the same label, are all kept. -/
theorem repeated_label_kept :
    ∃ op, parse? repeatedLabel 1 = some op ∧
      (values op.outputs).Perm ["\x7bhit: Item\x7d", "\x7bhit: Alias\x7d", "Nothing"] := by
  have hsome : (parse? repeatedLabel 1).isSome = true := by decide +kernel
  obtain ⟨op, hop⟩ := Option.isSome_iff_exists.mp hsome
  obtain ⟨text, htext, -, hiff⟩ := outcomes_kept_iff_none_displaced repeatedLabel 1 op hop
  have hwritten : outcomeText? repeatedLabel =
      some " \x7bhit: Item\x7d | \x7bhit: Alias\x7d | Nothing" := by decide +kernel
  obtain rfl := Option.some.inj (hwritten.symm.trans htext)
  have hparts : parts (" \x7bhit: Item\x7d | \x7bhit: Alias\x7d | Nothing" : Text) =
      ["\x7bhit: Item\x7d", "\x7bhit: Alias\x7d", "Nothing"] := by decide +kernel
  refine ⟨op, hop, (hiff.mpr ?_).2⟩
  intro j k hd
  rw [hparts] at hd
  have hk : k < 3 := lt_length_of_displaces hd
  have hnone : ∀ k < 3, ∀ j < k,
      ¬ Displaces ["\x7bhit: Item\x7d", "\x7bhit: Alias\x7d", "Nothing"] j k := by decide +kernel
  exact hnone k hk j hd.1 hd

/-- A line on which an appended position makes up a label that stands before it. -/
def madeUpLabel : Text := "find () : \x7bhit_2: Item\x7d | \x7bhit: Alias\x7d | \x7bhit: Copy\x7d"

/-- An outcome whose label is one that another one makes up displaces it, so that not every
signature keeps all its outcomes. -/
theorem made_up_label_loses_outcome :
    ¬ ∀ line number op text, parse? line number = some op → outcomeText? line = some text →
      op.outputs.entries.length = (alternatives text).length ∧
        (values op.outputs).Perm (alternatives text) := by
  intro hall
  have hkept : (parse? madeUpLabel 1).map (fun op => op.outputs.entries.length) = some 2 := by
    decide +kernel
  have hwritten :
      (outcomeText? madeUpLabel).map (fun text => (alternatives text).length) = some 3 := by
    decide +kernel
  obtain ⟨op, hop, htwo⟩ := Option.map_eq_some_iff.mp hkept
  obtain ⟨text, htext, hthree⟩ := Option.map_eq_some_iff.mp hwritten
  have hlength := (hall madeUpLabel 1 op text hop htext).1
  omega

end Signature

end Concordance
