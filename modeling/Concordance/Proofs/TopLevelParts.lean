import Concordance.Proofs.Nesting

set_option autoImplicit false

/-!
# The parts between top-level separators

The splitter counts brackets once over the whole text and never starts anew, while a part is read by
itself. The two counts agree, since a split is made only where the count is zero: each part then
begins at level zero. So the parts are described without the splitter (`IsDivision`), by what they
join to and by the levels inside of each, and no other list of parts meets the description. Nothing
is asked of the text: where it closes more than it has opened the level is negative, and separators
are passed over there as they are inside of brackets.
-/

namespace Concordance.Text

variable {sep : Char} {part t : Text} {parts : List Text}

/-- The parts of a text between its top-level separators. They join to the text, each but the last
closes as much as it opens, and no separator in a part stands at the level at which the part
begins. -/
structure IsDivision (sep : Char) (t : Text) (parts : List Text) : Prop where
  /-- There is a last part: without any the parts would join to the empty text, too. -/
  ne_nil : parts ≠ []
  joined : joinWith [sep] parts = t
  closed : ∀ part ∈ parts.dropLast, level part = 0
  whole : ∀ part ∈ parts, IsWhole sep part

/-- A first part is joined to the others by one separator. -/
theorem joinWith_cons (sep : Char) (part : Text) (h : parts ≠ []) :
    joinWith [sep] (part :: parts) = part ++ sep :: joinWith [sep] parts := by
  cases parts with
  | nil => exact absurd rfl h
  | cons next rest => simp [joinWith, List.intercalate_cons_cons]

/-- A text without a separator outside of brackets is its own only part. -/
theorem isDivision_singleton (h : IsWhole sep t) : IsDivision sep t [t] where
  ne_nil := List.cons_ne_nil t []
  joined := by simp [joinWith]
  closed := by simp
  whole := by simpa using h

/-- A part in front of a divided text, with a separator between them, divides the whole. -/
theorem IsDivision.cons (h : IsDivision sep t parts) (hlevel : level part = 0)
    (hwhole : IsWhole sep part) : IsDivision sep (part ++ sep :: t) (part :: parts) where
  ne_nil := List.cons_ne_nil part parts
  joined := by rw [joinWith_cons sep part h.ne_nil, h.joined]
  closed := by
    rw [List.dropLast_cons_of_ne_nil h.ne_nil, List.forall_mem_cons]
    exact ⟨hlevel, h.closed⟩
  whole := List.forall_mem_cons.mpr ⟨hwhole, h.whole⟩

/-- The first of several parts ends at a separator, and the others divide what follows it. -/
theorem IsDivision.of_cons (h : IsDivision sep t (part :: parts)) (hne : parts ≠ []) :
    t = part ++ sep :: joinWith [sep] parts ∧ level part = 0 ∧ IsWhole sep part ∧
      IsDivision sep (joinWith [sep] parts) parts := by
  have hclosed := h.closed
  rw [List.dropLast_cons_of_ne_nil hne, List.forall_mem_cons] at hclosed
  obtain ⟨hpart, hparts⟩ := List.forall_mem_cons.mp h.whole
  exact ⟨by rw [← h.joined, joinWith_cons sep part hne], hclosed.1, hpart,
    ⟨hne, rfl, hclosed.2, hparts⟩⟩

section Splitting

variable (hsep : isPlainChar sep = true)
include hsep

/-- The split at a separator divides the text. -/
theorem isDivision_splitTop (t : Text) : IsDivision sep t (splitTop sep t) := by
  -- The text behind the first separator is shorter.
  induction hlength : t.length using Nat.strong_induction_on generalizing t with
  | _ n ih =>
    rcases isWhole_or_exists_first sep t with hwhole | ⟨first, more, rfl, hfirst, hlevel⟩
    · rw [splitTop_eq_singleton hsep hwhole]
      exact isDivision_singleton hwhole
    · have hshorter : more.length < n := by
        rw [← hlength, List.length_append, List.length_cons]
        omega
      rw [splitTop_append hsep hfirst hlevel]
      exact (ih more.length hshorter more rfl).cons hlevel hfirst

/-- There is no division of a text but the split. -/
theorem IsDivision.eq_splitTop (h : IsDivision sep t parts) : parts = splitTop sep t := by
  induction parts generalizing t with
  | nil => exact absurd rfl h.ne_nil
  | cons part parts ih =>
    by_cases hne : parts = []
    · subst hne
      obtain rfl : part = t := by simpa [joinWith] using h.joined
      exact (splitTop_eq_singleton hsep (h.whole part List.mem_cons_self)).symm
    · obtain ⟨rfl, hlevel, hwhole, hrest⟩ := h.of_cons hne
      rw [splitTop_append hsep hwhole hlevel, ← ih hrest]

end Splitting

/-- Splitting at a separator that is no bracket gives the division of a text into the parts between
its top-level separators, and a text has only one. -/
theorem splitTop_is_only_division (sep : Char) (hsep : isPlainChar sep = true) (t : Text) :
    IsDivision sep t (splitTop sep t) ∧
      ∀ parts, IsDivision sep t parts → parts = splitTop sep t :=
  ⟨isDivision_splitTop hsep t, fun _ h => h.eq_splitTop hsep⟩

/-- A text that closes before it opens: its first comma stands below the level of the text, the
third one inside of braces. The last part is empty. -/
theorem splitTop_of_unbalanced_text :
    isPlainChar ',' = true ∧
      splitTop ',' ">a,b<,c\x7bx,y\x7d," = [">a,b<", "c\x7bx,y\x7d", ""] := by
  have hdivision : IsDivision ',' ">a,b<,c\x7bx,y\x7d," [">a,b<", "c\x7bx,y\x7d", ""] :=
    ⟨by decide, by decide, by decide, by decide⟩
  exact ⟨rfl, ((splitTop_is_only_division ',' rfl _).2 _ hdivision).symm⟩

end Concordance.Text
