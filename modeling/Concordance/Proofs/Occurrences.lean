import Concordance.Proofs.Listing
import Concordance.Proofs.Lists

set_option autoImplicit false

/-!
# Occurrences of texts

Where a text occurs in another one, what stands around its first occurrence, and how often it occurs
without overlap. No occurrence goes across a character that the text does not hold, so containing,
cutting and counting can be done on both sides of such a character.
-/

namespace Concordance.Text

variable {needle s t a b : Text} {c : Char}

/-! ## Containing -/

/-- The test of a beginning is the one for a prefix. -/
theorem startsWith_iff_leads : startsWith needle t = true ↔ needle <+: t := by
  rw [startsWith_iff]
  exact ⟨fun ⟨rest, h⟩ => ⟨rest, h.symm⟩, fun ⟨rest, h⟩ => ⟨rest, h.symm⟩⟩

/-- The search for a text finds it just if it stands somewhere. -/
theorem contains_iff : contains needle t = true ↔ needle <:+: t := by
  induction t with
  | nil => simp [contains]
  | cons c t ih =>
    rw [contains, Bool.or_eq_true, startsWith_iff_leads, ih, List.infix_cons_iff]

/-- A text with a character that the other one lacks is not found in it. -/
theorem contains_eq_false_of_mem (hc : c ∈ needle) (ht : c ∉ t) : contains needle t = false := by
  rw [← Bool.not_eq_true, contains_iff]
  intro hoccurs
  exact ht (hoccurs.mem hc)

/-- No occurrence of a text goes across a character that the text does not hold. -/
theorem contains_append_cons (hc : c ∉ needle) (s t : Text) :
    contains needle (s ++ c :: t) = (contains needle s || contains needle t) := by
  rw [Bool.eq_iff_iff, Bool.or_eq_true, contains_iff, contains_iff, contains_iff]
  constructor
  · rintro ⟨front, back, hsplit⟩
    rw [List.append_assoc] at hsplit
    rcases List.append_eq_append_iff.mp hsplit with ⟨more, rfl, hmore⟩ | ⟨more, rfl, hmore⟩
    · have hlead : needle <+: more := prefix_of_prefix_append_cons hc ⟨back, hmore⟩
      exact Or.inl (hlead.isInfix.trans (List.suffix_append front more).isInfix)
    · cases more with
      | nil =>
        have hlead : needle <+: [] := prefix_of_prefix_append_cons hc ⟨back, hmore.symm⟩
        exact Or.inl (hlead.isInfix.trans List.nil_infix)
      | cons d more =>
        obtain ⟨-, htail⟩ := List.cons.inj hmore
        exact Or.inr ⟨more, back, by rw [List.append_assoc]; exact htail.symm⟩
  · rintro (hs | ht)
    · exact hs.trans (List.prefix_append s (c :: t)).isInfix
    · exact ht.trans ((List.suffix_cons c t).trans (List.suffix_append s (c :: t))).isInfix

/-! ## Cutting at the first occurrence -/

/-- Nothing is left behind a text just if it does not stand in front. -/
theorem after?_eq_none_iff : after? needle t = none ↔ ¬ needle <+: t := by
  rw [← startsWith_iff_leads, startsWith, Bool.not_eq_true, Option.isSome_eq_false_iff,
    Option.isNone_iff_eq_none]

/-- What a cut gives makes up the text, and the cut is made at the first occurrence. -/
theorem of_cutAtText (hneedle : needle ≠ []) (h : cutAtText needle t = some (a, b)) :
    t = a ++ (needle ++ b) ∧ ¬ needle <:+: a := by
  induction t generalizing a with
  | nil =>
    obtain ⟨rest, hrest, -⟩ := Option.map_eq_some_iff.mp h
    have hnil := after?_eq_some_iff.mp hrest
    exact absurd (List.append_eq_nil_iff.mp hnil.symm).1 hneedle
  | cons c t ih =>
    rw [cutAtText] at h
    split at h
    · next rest hrest =>
      obtain ⟨hfront, rfl⟩ := Prod.mk.inj (Option.some.inj h)
      rw [← hfront]
      exact ⟨by simpa using after?_eq_some_iff.mp hrest, by simpa using hneedle⟩
    · next hnone =>
      obtain ⟨⟨front, back⟩, hcut, hpair⟩ := Option.map_eq_some_iff.mp h
      obtain ⟨rfl, rfl⟩ := Prod.mk.inj hpair
      obtain ⟨rfl, hfront⟩ := ih hcut
      refine ⟨rfl, ?_⟩
      rw [List.infix_cons_iff, not_or]
      refine ⟨fun hlead => ?_, hfront⟩
      exact after?_eq_none_iff.mp hnone (hlead.trans (List.prefix_append (c :: front) _))

/-- A text whose first character it does not hold again cannot occur across its own beginning: the
cut is made at the given occurrence if there is none before. -/
theorem cutAtText_of_not_infix (hc : c ∉ s) (ha : ¬ c :: s <:+: a) (b : Text) :
    cutAtText (c :: s) (a ++ (c :: s ++ b)) = some (a, b) := by
  induction a with
  | nil =>
    have hrest : after? (c :: s) (c :: (s ++ b)) = some b := after?_eq_some_iff.mpr rfl
    rw [List.nil_append, List.cons_append, cutAtText, hrest]
  | cons d a ih =>
    rw [List.infix_cons_iff, not_or] at ha
    have hnone : after? (c :: s) (d :: (a ++ (c :: s ++ b))) = none := by
      rw [after?_eq_none_iff]
      intro hlead
      rcases List.prefix_or_prefix_of_prefix hlead (List.prefix_append (d :: a) (c :: s ++ b)) with
        hwhole | ⟨more, hmore⟩
      · exact ha.1 hwhole
      · -- What is left of the text would begin with its first character.
        obtain ⟨rfl, rfl⟩ := List.cons.inj hmore
        rw [List.cons_prefix_cons] at hlead
        have hleft := (List.prefix_append_right_inj a).mp hlead.2
        cases more with
        | nil => exact ha.1 (by simp)
        | cons e more =>
          obtain rfl := (List.cons_prefix_cons.mp hleft).1
          simp at hc
    rw [List.cons_append, cutAtText, hnone, ih ha.2]
    rfl

/-! ## Counting -/

/-- Occurrences without a character are counted on both sides of that character, even if some
characters of the left side belong to an occurrence before them. -/
theorem countFrom_append_cons (hne : needle ≠ []) (hc : c ∉ needle) {skip : Nat}
    (hskip : skip ≤ s.length) (t : Text) :
    countFrom needle skip (s ++ c :: t) = countFrom needle skip s + count needle t := by
  induction s generalizing skip with
  | nil =>
    obtain rfl : skip = 0 := by simpa using hskip
    have hstart : startsWith needle (c :: t) = false := by
      rw [← Bool.not_eq_true, startsWith_iff_leads]
      intro hlead
      exact hne (List.prefix_nil.mp (prefix_of_prefix_append_cons (m := []) hc hlead))
    simp [countFrom, hstart, count]
  | cons d s ih =>
    cases skip with
    | succ skip => exact ih (Nat.le_of_succ_le_succ hskip)
    | zero =>
      have hstart : startsWith needle (d :: (s ++ c :: t)) = startsWith needle (d :: s) := by
        rw [Bool.eq_iff_iff, startsWith_iff_leads, startsWith_iff_leads]
        exact ⟨prefix_of_prefix_append_cons (m := d :: s) hc,
          fun h => h.trans (List.prefix_append (d :: s) (c :: t))⟩
      rw [List.cons_append, countFrom, countFrom, hstart]
      split
      · next hfound =>
        have hlength := (startsWith_iff_leads.mp hfound).length_le
        rw [List.length_cons] at hlength
        rw [ih (by omega)]
        omega
      · exact ih (Nat.zero_le _)

/-- Occurrences on both sides of a character that is not in the text are counted apart. -/
theorem count_append_cons (hne : needle ≠ []) (hc : c ∉ needle) (s t : Text) :
    count needle (s ++ c :: t) = count needle s + count needle t :=
  countFrom_append_cons hne hc (Nat.zero_le _) t

end Concordance.Text
