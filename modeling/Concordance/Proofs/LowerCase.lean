import Concordance.Proofs.Declarations
import Concordance.Text.LetterCase

set_option autoImplicit false

/-!
# Lower case in pieces

The lower-case form of a text is not the one of its pieces put together, because of the sigma that
ends a word. With the two sigmas taken for one it is (`fold`). So whether a piece reads as a given
word does not depend on what stands around it, as long as that word has no sigma
(`IsLowering.eq_iff`). A character of the lower-case form is one of the text itself or the image of
a capital (`isLowered`), and no image of a capital is a blank or a sign of punctuation.
-/

namespace Concordance.Text

variable {s t a b word : Text} {c d : Char}

/-- The final sigma becomes the plain one. -/
def plainSigma (c : Char) : Char := if c = 'ς' then 'σ' else c

/-- Lower case character by character, with one sigma only. -/
def fold (t : Text) : Text := t.flatMap fun c => (lowerChar c).map plainSigma

/-- The two lower-case forms of sigma, at the end of a word and elsewhere. -/
def isSigma (c : Char) : Bool := c = 'ς' || c = 'σ'

/-- The code points that lower case can bring into a text; zero stands for an image outside the
characters. -/
def isLowered (n : Nat) : Bool :=
  n == 0 || (0x61 ≤ n && n ≤ 0x7A) || n == 0x307 || n == 0x3C2 || n == 0x3C3 ||
    capitalRuns.any fun r => r.image ≤ n && n ≤ r.image + (r.last - r.first)

/-- A text is a lower-case form of another one, as that one has it in some surroundings. -/
structure IsLowering (s a : Text) : Prop where
  folded : a.map plainSigma = fold s
  chars : ∀ d ∈ a, d ∈ s ∨ isLowered d.toNat = true

/-! ## Characters -/

/-- A character of seven bits is its own lower-case form or has a letter for it. -/
theorem toLower_eq_or_isLowered (h : c.toNat < 0x80) :
    c.toLower = c ∨ isLowered c.toLower.toNat = true := by
  have hall : ∀ n < 0x80, (Char.ofNat n).toLower = Char.ofNat n ∨
      isLowered (Char.ofNat n).toLower.toNat = true := by
    decide +kernel
  have hc := hall c.toNat h
  rwa [Char.ofNat_toNat] at hc

/-- A number is the one of its character, or stands for none. -/
theorem toNat_ofNat_eq_or_zero (n : Nat) : (Char.ofNat n).toNat = n ∨ (Char.ofNat n).toNat = 0 := by
  by_cases hvalid : n.isValidChar
  · have hchar : Char.ofNat n = Char.ofNatAux n hvalid := dif_pos hvalid
    exact Or.inl (congrArg Char.toNat hchar)
  · have hzero : Char.ofNat n = Char.ofNat 0 := dif_neg hvalid
    exact Or.inr (congrArg Char.toNat hzero)

/-- The images of a run of capitals are lowered characters. -/
theorem isLowered_image {r : CapitalRun} (hr : r ∈ capitalRuns) {k : Nat}
    (hk : k ≤ r.last - r.first) : isLowered (Char.ofNat (r.image + k)).toNat = true := by
  rcases toNat_ofNat_eq_or_zero (r.image + k) with himage | hzero
  · have hany : (capitalRuns.any fun q =>
        q.image ≤ r.image + k && r.image + k ≤ q.image + (q.last - q.first)) = true := by
      rw [List.any_eq_true]
      exact ⟨r, hr, by simp [hk]⟩
    rw [himage, isLowered, hany, Bool.or_true]
  · rw [hzero]
    rfl

/-- Lower case leaves a character alone or gives a lowered one. -/
theorem mem_lowerChar (h : d ∈ lowerChar c) : d = c ∨ isLowered d.toNat = true := by
  unfold lowerChar at h
  split at h
  · next hascii =>
    obtain rfl := List.mem_singleton.mp h
    exact toLower_eq_or_isLowered hascii
  · split at h
    · simp only [List.mem_cons, List.not_mem_nil, or_false] at h
      rcases h with rfl | rfl <;> exact Or.inr (by decide +kernel)
    · split at h
      · next r hrun =>
        obtain rfl := List.mem_singleton.mp h
        have hmem := List.mem_of_find?_eq_some hrun
        have hholds := List.find?_some hrun
        simp only [Bool.and_eq_true, decide_eq_true_eq] at hholds
        exact Or.inr (isLowered_image hmem (by omega))
      · exact Or.inl (List.mem_singleton.mp h)

/-- No capital has a blank for an image. -/
theorem isLowered_eq_false_of_isBlank (h : isBlank c = true) : isLowered c.toNat = false := by
  have hnone : (blankCodes.all fun n => !isLowered n) = true := by decide +kernel
  simpa using List.all_eq_true.mp hnone _ (mem_blankCodes_of_isBlank h)

/-- A character has one character for its lower case, unless that holds a dot above. -/
theorem length_lowerChar (h : '\u0307' ∉ lowerChar c) : (lowerChar c).length = 1 := by
  unfold lowerChar at h ⊢
  split
  · rfl
  · split
    · next hascii hdotted =>
      rw [if_neg hascii, if_pos hdotted] at h
      simp at h
    · split <;> rfl

/-! ## Words -/

/-- The two sigmas are the same to a word that has neither. -/
theorem map_plainSigma_eq_iff (hword : word.any isSigma = false) :
    a.map plainSigma = word ↔ a = word := by
  induction word generalizing a with
  | nil => simp
  | cons c word ih =>
    simp only [List.any_cons, Bool.or_eq_false_iff] at hword
    obtain ⟨hc, hword⟩ := hword
    cases a with
    | nil => simp
    | cons d a =>
      have hhead : plainSigma d = c ↔ d = c := by
        unfold plainSigma
        split
        · next hd =>
          subst hd
          constructor <;> rintro rfl <;> cases hc
        · rfl
      rw [List.map_cons, List.cons_eq_cons, List.cons_eq_cons, hhead, ih hword]

/-- The beginning of a text has its lower-case form in front, whatever stands before it. -/
theorem exists_isLowering_append (seen s t : Text) :
    ∃ a, lowerFrom seen (s ++ t) = a ++ lowerFrom (s.reverse ++ seen) t ∧ IsLowering s a := by
  induction s generalizing seen with
  | nil => exact ⟨[], rfl, rfl, by simp⟩
  | cons c s ih =>
    obtain ⟨a, ha, hfolded, hchars⟩ := ih (c :: seen)
    have hseen : (c :: s).reverse ++ seen = s.reverse ++ c :: seen := by simp
    have hrest : ∀ d ∈ a, d ∈ c :: s ∨ isLowered d.toNat = true := by
      intro d hd
      exact (hchars d hd).imp_left (List.mem_cons_of_mem c)
    rw [List.cons_append, lowerFrom, hseen, ha]
    split
    · next hc =>
      subst hc
      generalize (meetsCased seen && !meetsCased (s ++ t)) = final
      refine ⟨_, (List.cons_append).symm, ?_, ?_⟩
      · have hsigma : (lowerChar 'Σ').map plainSigma = ['σ'] := by decide +kernel
        have hhead : plainSigma (if final then 'ς' else 'σ') = 'σ' := by cases final <;> rfl
        simp only [List.map_cons, hhead, hfolded, fold, List.flatMap_cons, hsigma]
        rfl
      · refine List.forall_mem_cons.mpr ⟨Or.inr ?_, hrest⟩
        cases final <;> decide +kernel
    · refine ⟨lowerChar c ++ a, by rw [List.append_assoc], ?_, ?_⟩
      · rw [List.map_append, hfolded]
        rfl
      · intro d hd
        rcases List.mem_append.mp hd with hd | hd
        · rcases mem_lowerChar hd with rfl | hlowered
          · exact Or.inl List.mem_cons_self
          · exact Or.inr hlowered
        · exact hrest d hd

/-- The lower case of a text is a lower-case form of it. -/
theorem isLowering_lower (s : Text) : IsLowering s (lower s) := by
  obtain ⟨a, ha, hlowering⟩ := exists_isLowering_append [] s []
  have hlower : lower s = a := by simpa [lower, lowerFrom] using ha
  rwa [hlower]

/-- Folding keeps the number of characters where no dot above comes in. -/
theorem length_fold (h : '\u0307' ∉ fold s) : (fold s).length = s.length := by
  induction s with
  | nil => rfl
  | cons c s ih =>
    have hcons : fold (c :: s) = (lowerChar c).map plainSigma ++ fold s := rfl
    rw [hcons, List.mem_append, not_or] at h
    have hc : '\u0307' ∉ lowerChar c := fun hmem => h.1 (List.mem_map.mpr ⟨_, hmem, rfl⟩)
    rw [hcons, List.length_append, List.length_map, length_lowerChar hc, ih h.2, List.length_cons,
      Nat.add_comm]

namespace IsLowering

/-- Two lower-case forms of one text can differ in sigmas only. -/
theorem eq_iff (ha : IsLowering s a) (hb : IsLowering s b) (hword : word.any isSigma = false) :
    a = word ↔ b = word := by
  rw [← map_plainSigma_eq_iff hword, ha.folded, ← hb.folded, map_plainSigma_eq_iff hword]

/-- A character that no capital lowers to is in a lower-case form only if it is in the text. -/
theorem not_mem (h : IsLowering s a) (hd : d ∉ s) (hlowered : isLowered d.toNat = false) :
    d ∉ a := by
  intro hmem
  rcases h.chars d hmem with hd' | hd'
  · exact hd hd'
  · rw [hlowered] at hd'
    cases hd'

/-- A word that has no combining dot is as long as the text that it is the lower-case form of. -/
theorem length_eq (h : IsLowering s a) (hdot : '\u0307' ∉ a) : a.length = s.length := by
  have hfold : '\u0307' ∉ fold s := by
    rw [← h.folded, List.mem_map]
    rintro ⟨d, hd, hplain⟩
    unfold plainSigma at hplain
    split at hplain
    · cases hplain
    · exact hdot (hplain ▸ hd)
  rw [← length_fold hfold, ← h.folded, List.length_map]

end IsLowering

end Concordance.Text
