import Concordance.Text.Utf8
import Mathlib.Data.List.Infix

set_option autoImplicit false

/-!
# Cutting a text to a number of bytes

The boundaries of a text are the sizes of its beginnings (`isByteBoundary_iff`). Zero is one of
them, so the search back from the limit ends, and what it ends at is the size of the largest
beginning within the limit (`exists_boundaryUpTo?`). Of two beginnings of one text the smaller is a
beginning of the larger one, since every character takes a byte at least; so the largest is also the
longest.
-/

namespace Concordance.Text

variable {p q t : Text} {limit n : Nat}

/-! ## Sizes -/

/-- Bytes can be counted on from any number. -/
theorem foldl_utf8Size (t : Text) (start : Nat) :
    t.foldl (fun size c => size + c.utf8Size) start = start + byteSize t := by
  induction t generalizing start with
  | nil => rfl
  | cons c t ih =>
    rw [byteSize, List.foldl_cons, List.foldl_cons, ih, ih, Nat.zero_add, Nat.add_assoc]

/-- The empty text takes no bytes. -/
@[simp, grind =] theorem byteSize_nil : byteSize [] = 0 := rfl

/-- The first character adds its own bytes. -/
@[simp, grind =] theorem byteSize_cons (c : Char) (t : Text) :
    byteSize (c :: t) = c.utf8Size + byteSize t := by
  rw [byteSize, List.foldl_cons, foldl_utf8Size, Nat.zero_add]

/-- Bytes add up over texts. -/
@[simp, grind =] theorem byteSize_append (s t : Text) :
    byteSize (s ++ t) = byteSize s + byteSize t := by
  rw [byteSize, List.foldl_append, foldl_utf8Size, ← byteSize]

/-- Only the empty text takes no bytes. -/
theorem byteSize_eq_zero_iff : byteSize t = 0 ↔ t = [] := by
  cases t with
  | nil => simp
  | cons c t =>
    have hpos := c.utf8Size_pos
    grind

/-- Of two beginnings of a text the one with fewer bytes begins the other. -/
theorem prefix_of_byteSize_le (hp : p <+: t) (hq : q <+: t) (h : byteSize p ≤ byteSize q) :
    p <+: q := by
  rcases List.prefix_or_prefix_of_prefix hp hq with hpq | ⟨more, rfl⟩
  · exact hpq
  · obtain rfl : more = [] := byteSize_eq_zero_iff.mp (by grind)
    rw [List.append_nil]

/-! ## Boundaries -/

/-- The boundaries of a text are the sizes of its beginnings. -/
theorem isByteBoundary_iff : isByteBoundary t n = true ↔ ∃ p, p <+: t ∧ byteSize p = n := by
  induction t generalizing n with
  | nil =>
    cases n with
    | zero => simp [isByteBoundary]
    | succ n => simp [isByteBoundary]
  | cons c t ih =>
    cases n with
    | zero => exact ⟨fun _ => ⟨[], List.nil_prefix, rfl⟩, fun _ => rfl⟩
    | succ n =>
      rw [isByteBoundary, Bool.and_eq_true, decide_eq_true_eq, ih]
      constructor
      · rintro ⟨hle, p, hp, hsize⟩
        exact ⟨c :: p, List.cons_prefix_cons.mpr ⟨rfl, hp⟩, by grind⟩
      · rintro ⟨p, hp, hsize⟩
        cases p with
        | nil => cases hsize
        | cons d p =>
          obtain ⟨rfl, htail⟩ := List.cons_prefix_cons.mp hp
          exact ⟨by grind, p, htail, by grind⟩

/-- Taking the bytes of a beginning gives that beginning. -/
theorem takeBytes_byteSize (h : p <+: t) : takeBytes (byteSize p) t = p := by
  induction p generalizing t with
  | nil => cases t <;> rfl
  | cons c p ih =>
    obtain ⟨rest, rfl⟩ := h
    obtain ⟨n, hn⟩ : ∃ n, byteSize (c :: p) = n + 1 := by
      have hpos := c.utf8Size_pos
      exact ⟨byteSize (c :: p) - 1, by grind⟩
    have hrest : n + 1 - c.utf8Size = byteSize p := by grind
    rw [hn, List.cons_append, takeBytes, hrest, ih (List.prefix_append p rest)]

/-- The search back from a number of bytes ends at the size of the largest beginning that takes no
more. -/
theorem exists_boundaryUpTo? (t : Text) (n : Nat) :
    ∃ p, p <+: t ∧ boundaryUpTo? t n = some (byteSize p) ∧ byteSize p ≤ n ∧
      ∀ q, q <+: t → byteSize q ≤ n → byteSize q ≤ byteSize p := by
  induction n with
  | zero =>
    -- Zero is the size of the empty beginning.
    exact ⟨[], List.nil_prefix, by cases t <;> rfl, Nat.le_refl 0, fun q _ hq => hq⟩
  | succ n ih =>
    rw [boundaryUpTo?]
    cases hhere : isByteBoundary t (n + 1) with
    | true =>
      obtain ⟨p, hp, hsize⟩ := isByteBoundary_iff.mp hhere
      exact ⟨p, hp, by rw [if_pos rfl, hsize], by omega, fun q _ hq => by omega⟩
    | false =>
      obtain ⟨p, hp, hfound, hle, hlargest⟩ := ih
      refine ⟨p, hp, by rw [if_neg Bool.false_ne_true, hfound], by omega, fun q hq hsize => ?_⟩
      have hne : byteSize q ≠ n + 1 := by
        intro heq
        rw [isByteBoundary_iff.mpr ⟨q, hq, heq⟩] at hhere
        cases hhere
      exact hlargest q hq (by omega)

/-! ## The cut -/

/-- A text that is too long is cut at the largest boundary up to the limit, which is the size of the
cut text. -/
theorem truncate_of_lt (h : limit < byteSize t) :
    truncate limit t <+: t ∧ boundaryUpTo? t limit = some (byteSize (truncate limit t)) ∧
      byteSize (truncate limit t) ≤ limit ∧
      ∀ q, q <+: t → byteSize q ≤ limit → byteSize q ≤ byteSize (truncate limit t) := by
  obtain ⟨p, hp, hfound, hle, hlargest⟩ := exists_boundaryUpTo? t limit
  have hcut : truncate limit t = p := by
    rw [truncate, if_neg (Nat.not_le.mpr h), hfound, Option.getD_some, takeBytes_byteSize hp]
  rw [hcut]
  exact ⟨hp, hfound, hle, hlargest⟩

/-- What is cut off begins with a character that has no room any more, and a character takes four
bytes at most. -/
theorem lt_byteSize_truncate_add (h : limit < byteSize t) :
    limit < byteSize (truncate limit t) + 4 := by
  obtain ⟨⟨rest, hrest⟩, -, hle, hlargest⟩ := truncate_of_lt h
  cases rest with
  | nil =>
    rw [List.append_nil] at hrest
    rw [hrest] at hle
    omega
  | cons c rest =>
    have hnext : truncate limit t ++ [c] <+: t := ⟨rest, by rw [List.append_assoc]; exact hrest⟩
    have hfour := c.utf8Size_le_four
    have hpos := c.utf8Size_pos
    have hlonger : ¬ byteSize (truncate limit t ++ [c]) ≤ limit := by
      intro hfits
      have hlength := hlargest _ hnext hfits
      grind
    grind

/-- A cut text is the longest beginning, in whole characters, that takes at most `limit` bytes. It
is the text itself just if that takes no more. Otherwise the search for a boundary ends at the size
of the cut text, less than four bytes below the limit. -/
theorem truncate_is_longest_beginning (limit : Nat) (t : Text) :
    truncate limit t <+: t ∧ byteSize (truncate limit t) ≤ limit ∧
    (∀ p, p <+: t → byteSize p ≤ limit → p <+: truncate limit t) ∧
    (truncate limit t = t ↔ byteSize t ≤ limit) ∧
    (limit < byteSize t →
      boundaryUpTo? t limit = some (byteSize (truncate limit t)) ∧
        limit - byteSize (truncate limit t) < 4) := by
  by_cases hfits : byteSize t ≤ limit
  · have hsame : truncate limit t = t := if_pos hfits
    rw [hsame]
    exact ⟨List.prefix_refl t, hfits, fun p hp _ => hp, iff_of_true rfl hfits,
      fun h => absurd hfits (Nat.not_le.mpr h)⟩
  · have hlt := Nat.not_le.mp hfits
    obtain ⟨hlead, hfound, hle, hlargest⟩ := truncate_of_lt hlt
    refine ⟨hlead, hle, fun p hp hsize => ?_, iff_of_false (fun hsame => ?_) hfits,
      fun _ => ⟨hfound, ?_⟩⟩
    · exact prefix_of_byteSize_le hp hlead (hlargest p hp hsize)
    · rw [hsame] at hle
      exact hfits hle
    · have := lt_byteSize_truncate_add hlt
      omega

/-- Characters of one to four bytes, with a limit just before the end of the last one. -/
theorem truncate_inside_last_character :
    9 < byteSize "aé€😀" ∧ truncate 9 "aé€😀" = "aé€" ∧ boundaryUpTo? "aé€😀" 9 = some 6 ∧
      9 - byteSize "aé€" < 4 := by
  have hcut : truncate 9 "aé€😀" = "aé€" := by decide
  have hsearch := (truncate_is_longest_beginning 9 "aé€😀").2.2.2.2 (by decide)
  rw [hcut] at hsearch
  exact ⟨by decide, hcut, hsearch⟩

end Concordance.Text
