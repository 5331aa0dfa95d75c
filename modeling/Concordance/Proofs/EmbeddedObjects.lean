import Concordance.Assessment.Reply
import Concordance.Proofs.JsonGrammar
import Concordance.Proofs.Layout

set_option autoImplicit false

/-!
# The object inside of a reply

The scanner for the embedded object counts braces and knows whether it is in a string literal, and
nothing else. It goes past every phrase of the grammar and comes out as it went in (`Passes`): with
the same number of open braces, outside of literals. So the brace that it stops at is the one that
closes the object, whatever surrounds the object, and a reply means what the object in it means.
-/

namespace Concordance.Reply

open Text JsonValue

/-! ## Going past a phrase -/

/-- The scanner, outside of a literal, goes past a text and is where it was. -/
def Passes (t : Text) : Prop :=
  ∀ depth rest, closingFrom depth false false (t ++ rest) =
    (closingFrom depth false false rest).map (t ++ ·)

variable {t u : Text} {c : Char}

/-- The empty text is passed over. -/
@[simp] theorem passes_nil : Passes [] := by
  intro depth rest
  simp

/-- Texts that are passed over one after the other are passed over together. -/
theorem Passes.append (ht : Passes t) (hu : Passes u) : Passes (t ++ u) := by
  intro depth rest
  rw [List.append_assoc, ht, hu, Option.map_map]
  congr 1
  funext after
  exact (List.append_assoc t u after).symm

/-- Whether a character means something to the scanner. -/
def isMark (c : Char) : Bool := c = '"' || c = '\x7b' || c = '\x7d'

/-- A character that is no mark is passed over. -/
theorem Passes.cons (hc : isMark c = false) (ht : Passes t) : Passes (c :: t) := by
  intro depth rest
  simp only [isMark, Bool.or_eq_false_iff, decide_eq_false_iff_not] at hc
  obtain ⟨⟨hquote, hopening⟩, hclosing⟩ := hc
  have hstep : closingFrom depth false false (c :: (t ++ rest)) =
      (closingFrom depth false false (t ++ rest)).map (c :: ·) := by
    simp [closingFrom, hquote, hopening, hclosing]
  rw [List.cons_append, hstep, ht, Option.map_map]
  rfl

/-- A text without marks is passed over. -/
theorem passes_of_any (h : t.any isMark = false) : Passes t := by
  induction t with
  | nil => exact passes_nil
  | cons c t ih =>
    rw [List.any_cons, Bool.or_eq_false_iff] at h
    exact (ih h.2).cons h.1

/-- A text of characters of a class without marks is passed over. -/
theorem passes_of_forall {p : Char → Bool} (h : ∀ c ∈ t, p c = true) (hquote : p '"' = false)
    (hopening : p '\x7b' = false) (hclosing : p '\x7d' = false) : Passes t := by
  apply passes_of_any
  rw [List.any_eq_false]
  intro c hc hmark
  have hp := h c hc
  simp only [isMark, Bool.or_eq_true, decide_eq_true_eq] at hmark
  rcases hmark with (rfl | rfl) | rfl
  · rw [hquote] at hp
    cases hp
  · rw [hopening] at hp
    cases hp
  · rw [hclosing] at hp
    cases hp

/-- What stands between braces is passed one level deeper. -/
theorem Passes.braces (ht : Passes t) : Passes ('\x7b' :: (t ++ ['\x7d'])) := by
  intro depth rest
  have hopening : ∀ after, closingFrom depth false false ('\x7b' :: after) =
      (closingFrom (depth + 1) false false after).map ('\x7b' :: ·) := fun _ => rfl
  have hclosing : closingFrom (depth + 1) false false ('\x7d' :: rest) =
      (closingFrom depth false false rest).map ('\x7d' :: ·) := rfl
  rw [List.cons_append, List.append_assoc, List.singleton_append, hopening, ht, hclosing,
    Option.map_map, Option.map_map]
  congr 1
  funext after
  simp

/-! ## Tokens -/

/-- Inside of a string an ordinary character is passed over. -/
theorem closingFrom_quoted (hquote : c ≠ '"') (hslash : c ≠ '\\') (depth : Nat) (t : Text) :
    closingFrom depth true false (c :: t) = (closingFrom depth true false t).map (c :: ·) := by
  rw [closingFrom, decide_eq_true hquote, decide_eq_false hslash]

/-- Inside of a string an escaped character is passed over with its backslash. -/
theorem closingFrom_escape (e : Char) (depth : Nat) (t : Text) :
    closingFrom depth true false ('\\' :: e :: t) =
      (closingFrom depth true false t).map ('\\' :: e :: ·) := by
  have hslash : closingFrom depth true false ('\\' :: e :: t) =
      (closingFrom depth true true (e :: t)).map ('\\' :: ·) := rfl
  rw [hslash, closingFrom, Option.map_map]
  rfl

/-- A hexadecimal digit is neither a quote nor a backslash. -/
theorem ne_of_hexValue? {n : Nat} (h : hexValue? c = some n) : c ≠ '"' ∧ c ≠ '\\' := by
  constructor
  · rintro rfl
    cases h
  · rintro rfl
    cases h

/-- No digit of an escaped code unit ends the literal or escapes what follows. -/
theorem closingFrom_codeUnit {a b c d : Char} {n : Nat} (h : codeUnit? a b c d = some n)
    (depth : Nat) (t : Text) :
    closingFrom depth true false (a :: b :: c :: d :: t) =
      (closingFrom depth true false t).map ([a, b, c, d] ++ ·) := by
  obtain ⟨_, ha, h⟩ := Option.bind_eq_some_iff.mp h
  obtain ⟨_, hb, h⟩ := Option.bind_eq_some_iff.mp h
  obtain ⟨_, hc, h⟩ := Option.bind_eq_some_iff.mp h
  obtain ⟨_, hd, -⟩ := Option.bind_eq_some_iff.mp h
  rw [closingFrom_quoted (ne_of_hexValue? ha).1 (ne_of_hexValue? ha).2,
    closingFrom_quoted (ne_of_hexValue? hb).1 (ne_of_hexValue? hb).2,
    closingFrom_quoted (ne_of_hexValue? hc).1 (ne_of_hexValue? hc).2,
    closingFrom_quoted (ne_of_hexValue? hd).1 (ne_of_hexValue? hd).2]
  simp only [Option.map_map]
  rfl

/-- The scanner goes through a literal to its closing quote. -/
theorem closingFrom_elements {elements : List Element} (h : SpellsElements elements t)
    (depth : Nat) (rest : Text) :
    closingFrom depth true false (t ++ '"' :: rest) =
      (closingFrom depth false false rest).map ((t ++ ['"']) ++ ·) := by
  induction h with
  | nil => rfl
  | plain hquote hslash hcontrol h ih =>
    rw [List.cons_append, closingFrom_quoted hquote hslash, ih, Option.map_map]
    rfl
  | escape he h ih =>
    rw [List.cons_append, List.cons_append, closingFrom_escape, ih, Option.map_map]
    rfl
  | code hn h ih =>
    simp only [List.cons_append]
    rw [closingFrom_escape, closingFrom_codeUnit hn, ih, Option.map_map, Option.map_map]
    rfl

/-- A string is passed over, whatever it holds. -/
theorem passes_string {s : JsonString} (h : SpellsString s t) : Passes t := by
  obtain ⟨h⟩ := h
  intro depth rest
  have hquote : ∀ after, closingFrom depth false false ('"' :: after) =
      (closingFrom depth true false after).map ('"' :: ·) := fun _ => rfl
  rw [List.cons_append, List.append_assoc, List.singleton_append, hquote, closingFrom_elements h,
    Option.map_map]
  rfl

/-- Spacing is passed over. -/
theorem passes_spacing {gap : Text} (h : IsSpacing gap) : Passes gap :=
  passes_of_forall h rfl rfl rfl

/-- Digits are passed over. -/
theorem passes_digits {digits : Text} (h : IsDigits digits) : Passes digits :=
  passes_of_forall h.2 rfl rfl rfl

/-- A number is passed over. -/
theorem passes_numeral {n : Numeral} (h : SpellsNumeral n t) : Passes t := by
  obtain @⟨negative, whole, fraction, point, power, exponent, hwhole, hpoint, hpower⟩ := h
  have hsign : Passes (minus negative) := by
    cases negative with
    | true => exact passes_nil.cons rfl
    | false => exact passes_nil
  have hwhole : Passes whole := by
    rcases hwhole with rfl | ⟨hdigits, -⟩
    · exact passes_nil.cons rfl
    · exact passes_digits hdigits
  have hpoint : Passes point := by
    cases hpoint with
    | absent => exact passes_nil
    | point hdigits => exact (passes_digits hdigits).cons rfl
  have hpower : Passes power := by
    cases hpower with
    | absent => exact passes_nil
    | @marked mark negative sign digits hmark hsign hdigits =>
      have hmark : isMark mark = false := by
        rcases hmark with rfl | rfl
        · rfl
        · rfl
      have hsign : Passes sign := by
        cases hsign with
        | absent => exact passes_nil
        | plus => exact passes_nil.cons rfl
        | minus => exact passes_nil.cons rfl
      exact (hsign.append (passes_digits hdigits)).cons hmark
  exact hsign.append (hwhole.append (hpoint.append hpower))

/-! ## Phrases -/

/-- The scanner goes past everything that the grammar allows. -/
theorem passes_of_spells {phrase : Phrase} (h : Spells phrase t) : Passes t := by
  induction h with
  | null => exact passes_of_any rfl
  | isTrue => exact passes_of_any rfl
  | isFalse => exact passes_of_any rfl
  | number h => exact passes_numeral h
  | string h => exact passes_string h
  | emptyArray hgap => exact ((passes_spacing hgap).append (passes_nil.cons rfl)).cons rfl
  | array h ih => exact (ih.append (passes_nil.cons rfl)).cons rfl
  | emptyObject hgap => exact (passes_spacing hgap).braces
  | object h ih => exact ih.braces
  | element hbefore h hafter ih =>
    exact (passes_spacing hbefore).append (ih.append (passes_spacing hafter))
  | lastElement h ih => exact ih
  | nextElement h hrest ih ihrest => exact ih.append (ihrest.cons rfl)
  | member hbefore hkey hafter h ih =>
    exact (passes_spacing hbefore).append
      ((passes_string hkey).append ((passes_spacing hafter).append (ih.cons rfl)))
  | lastMember h ih => exact ih
  | nextMember h hrest ih ihrest => exact ih.append (ihrest.cons rfl)

/-! ## The first object -/

/-- What stands between the braces of an object is passed. -/
theorem IsObject.exists_passes {o : Text} (h : IsObject o) :
    ∃ inner, o = '\x7b' :: (inner ++ ['\x7d']) ∧ Passes inner := by
  obtain ⟨list, h⟩ := h
  cases h with
  | emptyObject hgap => exact ⟨_, rfl, passes_spacing hgap⟩
  | object h => exact ⟨_, rfl, passes_of_spells h⟩

/-- The first object of a text without an earlier brace is the one that stands there. -/
theorem firstObject?_append {before o : Text} (hbefore : '\x7b' ∉ before) (ho : IsObject o)
    (after : Text) : firstObject? (before ++ o ++ after) = some o := by
  obtain ⟨inner, rfl, hinner⟩ := IsObject.exists_passes ho
  have hclosing : closingFrom 0 false false ('\x7d' :: after) = some ['\x7d'] := rfl
  unfold firstObject?
  rw [List.append_assoc, List.cons_append, cutAt_append hbefore]
  simp only [Option.bind_eq_bind, Option.bind_some, List.append_assoc, List.singleton_append]
  rw [hinner, hclosing]
  rfl

/-- The object embedded in a reply is found exactly: behind a text without opening braces, a JSON
object is what the scanner finds, whatever follows it. If it has the agreed form, the reply has the
meaning that the object has alone. -/
theorem embedded_object_found (before o after : Text) (hbefore : '\x7b' ∉ before)
    (ho : IsObject o) :
    firstObject? (before ++ o ++ after) = some o ∧
      ∀ a, (JsonValue.read? o).bind assessment? = some a →
        parse (before ++ o ++ after) = parse o ∧ parse o = a := by
  have hfound := firstObject?_append hbefore ho after
  have halone : firstObject? o = some o := by
    simpa using firstObject?_append List.not_mem_nil ho []
  refine ⟨hfound, fun a ha => ?_⟩
  unfold parse
  rw [hfound, halone, Option.bind_some, ha]
  exact ⟨rfl, rfl⟩

/-- An object with braces, quotes and a backslash in its strings. -/
def bracesInStrings : Text :=
  "\x7b\"alignment\": \"so \\\"\x7d\\\\\", \"other\": [\x7b\"\x7b\": 1.5e3\x7d], \"score\": 72\x7d"

/-- An object with braces and quotes inside of its strings is found whole. -/
theorem embedded_braces_in_strings :
    '\x7b' ∉ ("Review \x7d\": " : Text) ∧ IsObject bracesInStrings ∧
      firstObject? ("Review \x7d\": " ++ bracesInStrings ++ " and \x7b\x7d") =
        some bracesInStrings ∧
      parse ("Review \x7d\": " ++ bracesInStrings ++ " and \x7b\x7d") = parse bracesInStrings ∧
      parse bracesInStrings = { alignment := some ("so \"\x7d\\" : Text), score := some 72 } := by
  have hbefore : '\x7b' ∉ ("Review \x7d\": " : Text) := by decide +kernel
  have hobject : IsObject bracesInStrings := by decide +kernel
  obtain ⟨hfound, hparse⟩ :=
    embedded_object_found "Review \x7d\": " bracesInStrings " and \x7b\x7d" hbefore hobject
  obtain ⟨hsame, hvalue⟩ :=
    hparse { alignment := some ("so \"\x7d\\" : Text), score := some 72 } (by decide +kernel)
  exact ⟨hbefore, hobject, hfound, hsame, hvalue⟩

end Concordance.Reply
