import Concordance.Json.Writer
import Concordance.Proofs.JsonGrammar

set_option autoImplicit false

/-!
# What is written is JSON

The writer follows the grammar: the text of a value spells that value, at any depth
(`spells_writeAt`). Strings are unrestricted, since each character has an escape or stands for
itself. Only numerals must be built from digits as the grammar wants it. So a value that is written
is read back as it was (`read?_write`).
-/

namespace Concordance.JsonValue

open Text

/-! ## Strings -/

/-- The four hexadecimal digits of a control character spell its number. -/
theorem codeUnit?_hexDigits {n : Nat} (h : n < 0x20) :
    codeUnit? '0' '0' (hexDigit (n / 16)) (hexDigit (n % 16)) = some n := by
  have hall : ∀ n < 0x20, codeUnit? '0' '0' (hexDigit (n / 16)) (hexDigit (n % 16)) = some n := by
    decide
  exact hall n h

/-- A code below the surrogates stands for its character. -/
theorem textOf_code {n : Nat} (h : n < 0xD800) (elements : List Element) :
    textOf (.code n :: elements) = (textOf elements).map (Char.ofNat n :: ·) := by
  have hhigh : isHighSurrogate n = false := by
    rw [isHighSurrogate, decide_eq_false (by omega), Bool.false_and]
  have hlow : isLowSurrogate n = false := by
    rw [isLowSurrogate, decide_eq_false (by omega), Bool.false_and]
  rw [textOf.eq_def]
  simp [hhigh, hlow]

/-- An element is how a character is written, and it stands for that character. -/
structure StandsFor (element : Element) (c : Char) : Prop where
  spells : ∀ {elements t}, SpellsElements elements t →
    SpellsElements (element :: elements) (escapeChar c ++ t)
  means : ∀ elements, textOf (element :: elements) = (textOf elements).map (c :: ·)

variable {c e : Char}

/-- A character with a short escape is written by it and stands for itself. -/
theorem standsFor_escape (hwritten : escapeChar c = ['\\', e]) (hmeant : shortEscape? e = some c) :
    StandsFor (.char c) c := by
  refine ⟨fun h => ?_, fun _ => rfl⟩
  rw [hwritten]
  exact .escape hmeant h

/-- A control character is written by its number and stands for itself. -/
theorem standsFor_code (hcontrol : c.toNat < 0x20) (hwritten : escapeChar c =
    ['\\', 'u', '0', '0', hexDigit (c.toNat / 16), hexDigit (c.toNat % 16)]) :
    StandsFor (.code c.toNat) c := by
  refine ⟨fun h => ?_, fun elements => ?_⟩
  · rw [hwritten]
    exact .code (codeUnit?_hexDigits hcontrol) h
  · rw [textOf_code (by omega), Char.ofNat_toNat]

/-- Every character is written as an element that stands for it. -/
theorem exists_standsFor (c : Char) : ∃ element, StandsFor element c := by
  by_cases hquote : c = '"'
  · subst hquote
    exact ⟨_, standsFor_escape rfl rfl⟩
  by_cases hslash : c = '\\'
  · subst hslash
    exact ⟨_, standsFor_escape rfl rfl⟩
  by_cases hfeed : c = '\n'
  · subst hfeed
    exact ⟨_, standsFor_escape rfl rfl⟩
  by_cases hreturn : c = '\r'
  · subst hreturn
    exact ⟨_, standsFor_escape rfl rfl⟩
  by_cases htab : c = '\t'
  · subst htab
    exact ⟨_, standsFor_escape rfl rfl⟩
  by_cases hback : c = '\x08'
  · subst hback
    exact ⟨_, standsFor_escape rfl rfl⟩
  by_cases hform : c = '\x0c'
  · subst hform
    exact ⟨_, standsFor_escape rfl rfl⟩
  by_cases hcontrol : c.toNat < 0x20
  · exact ⟨_, standsFor_code hcontrol
      (by simp [escapeChar, hquote, hslash, hfeed, hreturn, htab, hback, hform, hcontrol])⟩
  · have hwritten : escapeChar c = [c] := by
      simp [escapeChar, hquote, hslash, hfeed, hreturn, htab, hback, hform, hcontrol]
    refine ⟨.char c, fun h => ?_, fun _ => rfl⟩
    rw [hwritten]
    exact .plain hquote hslash (Nat.le_of_not_lt hcontrol) h

/-- The literal of a text holds elements that make up the text. -/
theorem exists_elements (t : Text) :
    ∃ elements, SpellsElements elements (t.flatMap escapeChar) ∧ textOf elements = some t := by
  induction t with
  | nil => exact ⟨[], .nil, rfl⟩
  | cons c t ih =>
    obtain ⟨elements, hspells, hmeans⟩ := ih
    obtain ⟨element, hc⟩ := exists_standsFor c
    exact ⟨element :: elements, hc.spells hspells, by rw [hc.means, hmeans]; rfl⟩

/-- A string is spelled by what is written for it. -/
theorem spellsString_writeString (s : JsonString) : SpellsString s (writeString s) := by
  cases s with
  | none => exact SpellsString.quoted (.code (n := 0xD800) rfl .nil)
  | some t =>
    obtain ⟨elements, hspells, hmeans⟩ := exists_elements t
    have hquoted := SpellsString.quoted hspells
    rwa [hmeans] at hquoted

/-! ## Numerals -/

/-- The parts of a numeral are such as the grammar wants them. -/
structure IsNumeral (n : Numeral) : Prop where
  whole : IsWholePart n.whole
  fraction : n.fraction = [] ∨ IsDigits n.fraction
  exponent : ∀ power ∈ n.exponent, IsDigits power.2

/-- A numeral is spelled by what is written for it. -/
theorem spellsNumeral_writeNumeral {n : Numeral} (h : IsNumeral n) :
    SpellsNumeral n (writeNumeral n) := by
  obtain ⟨negative, whole, fraction, exponent⟩ := n
  have hpoint : SpellsFraction fraction (if fraction.isEmpty then [] else '.' :: fraction) := by
    rcases h.fraction with hnone | hdigits
    · obtain rfl : fraction = [] := hnone
      exact .absent
    · rw [if_neg (by simpa using hdigits.1)]
      exact .point hdigits
  cases exponent with
  | none =>
    have hparts : SpellsNumeral ⟨negative, whole, fraction, none⟩ _ :=
      .parts h.whole hpoint .absent
    simpa [writeNumeral, minus] using hparts
  | some power =>
    obtain ⟨down, digits⟩ := power
    have hdigits : IsDigits digits := h.exponent _ rfl
    have hsign : SpellsSign down (if down then ['-'] else []) := by
      cases down with
      | true => exact .minus
      | false => exact .absent
    have hparts : SpellsNumeral ⟨negative, whole, fraction, some (down, digits)⟩ _ :=
      .parts h.whole hpoint (.marked (Or.inl rfl) hsign hdigits)
    simpa [writeNumeral, minus] using hparts

/-- The digits of a positive number do not start with a zero. -/
theorem head?_toDigits_ne {n : Nat} (h : 0 < n) : (Nat.toDigits 10 n).head? ≠ some '0' := by
  induction n using Nat.strongRecOn with
  | ind n ih =>
    rw [Nat.toDigits_eq_if (by decide)]
    split
    · next hlt =>
      have hall : ∀ n < 10, 0 < n → [n.digitChar].head? ≠ some '0' := by decide
      exact hall n hlt h
    · next hge =>
      rw [List.head?_append_of_ne_nil _ Nat.toDigits_ne_nil]
      exact ih (n / 10) (by omega) (by omega)

/-- The digits of a number are digits. -/
theorem isDigits_ofNat (n : Nat) : IsDigits (Text.ofNat n) :=
  ⟨Nat.toDigits_ne_nil, fun _ hc => Nat.isDigit_of_mem_toDigits (by decide) (by decide) hc⟩

/-- A number is a numeral. -/
theorem isNumeral_ofNat (n : Nat) : IsNumeral (.ofNat n) := by
  refine ⟨?_, Or.inl rfl, by rintro power ⟨⟩⟩
  rcases Nat.eq_zero_or_pos n with rfl | hpos
  · exact Or.inl rfl
  · exact Or.inr ⟨isDigits_ofNat n, head?_toDigits_ne hpos⟩

/-! ## Values -/

/-- All numerals in a value are such as the grammar wants them. -/
inductive IsWritable : JsonValue → Prop
  | null : IsWritable .null
  | bool (b : Bool) : IsWritable (.bool b)
  | number {n : Numeral} (h : IsNumeral n) : IsWritable (.number n)
  | string (s : JsonString) : IsWritable (.string s)
  | array {items : List JsonValue} (h : ∀ v ∈ items, IsWritable v) : IsWritable (.array items)
  | object {list : List (JsonString × JsonValue)} (h : ∀ m ∈ list, IsWritable m.2) :
      IsWritable (.object list)

/-- A line end with its indentation is spacing. -/
theorem isSpacing_newLine (depth : Nat) : IsSpacing (newLine depth) := by
  intro c hc
  simp only [newLine, List.mem_cons, List.mem_replicate] at hc
  rcases hc with rfl | ⟨-, rfl⟩
  · rfl
  · rfl

/-- Items that are each spelled by what is written for them are so as a list. -/
theorem spells_items {depth : Nat} {after : Text} (hafter : IsSpacing after) {v : JsonValue}
    {items : List JsonValue} (h : ∀ w ∈ v :: items, Spells (.value w) (writeAt depth w)) :
    Spells (.elements (v :: items))
      (newLine depth ++ (writeAt depth v ++ (writeItems depth items ++ after))) := by
  induction items generalizing v with
  | nil =>
    exact .lastElement (.element (isSpacing_newLine depth) (h v List.mem_cons_self) hafter)
  | cons w items ih =>
    obtain ⟨hv, hrest⟩ := List.forall_mem_cons.mp h
    have hnext :=
      Spells.nextElement (.element (isSpacing_newLine depth) hv isSpacing_nil) (ih hrest)
    simpa [writeItems] using hnext

/-- A member whose value is spelled by what is written for it is so with its key. -/
theorem spells_member {depth : Nat} {after : Text} (hafter : IsSpacing after)
    {m : JsonString × JsonValue} (h : Spells (.value m.2) (writeAt depth m.2)) :
    Spells (.member m)
      (newLine depth ++ (writeString m.1 ++ ':' :: ' ' :: (writeAt depth m.2 ++ after))) := by
  have hspace : IsSpacing [' '] := by
    intro c hc
    obtain rfl := List.mem_singleton.mp hc
    rfl
  exact .member (isSpacing_newLine depth) (spellsString_writeString m.1) isSpacing_nil
    (.element hspace h hafter)

/-- Members whose values are spelled by what is written for them are so as a list. -/
theorem spells_members {depth : Nat} {after : Text} (hafter : IsSpacing after)
    {m : JsonString × JsonValue} {list : List (JsonString × JsonValue)}
    (h : ∀ n ∈ m :: list, Spells (.value n.2) (writeAt depth n.2)) :
    Spells (.members (m :: list))
      (newLine depth ++ (writeString m.1 ++ ':' :: ' ' :: (writeAt depth m.2 ++
        (writeMembers depth list ++ after)))) := by
  induction list generalizing m with
  | nil => exact .lastMember (spells_member hafter (h m List.mem_cons_self))
  | cons n list ih =>
    obtain ⟨hm, hrest⟩ := List.forall_mem_cons.mp h
    have hnext := Spells.nextMember (spells_member isSpacing_nil hm) (ih hrest)
    simpa [writeMembers] using hnext

/-- The text of a value spells that value. -/
theorem spells_writeAt {v : JsonValue} (h : IsWritable v) (depth : Nat) :
    Spells (.value v) (writeAt depth v) := by
  induction h generalizing depth with
  | null => exact .null
  | bool b =>
    cases b with
    | true => exact .isTrue
    | false => exact .isFalse
  | number h => exact .number (spellsNumeral_writeNumeral h)
  | string s => exact .string (spellsString_writeString s)
  | @array items h ih =>
    cases items with
    | nil => exact .emptyArray isSpacing_nil
    | cons v items =>
      have harray := Spells.array
        (spells_items (isSpacing_newLine depth) fun w hw => ih w hw (depth + 1))
      simpa [writeAt] using harray
  | @object list h ih =>
    cases list with
    | nil => exact .emptyObject isSpacing_nil
    | cons m list =>
      have hobject := Spells.object
        (spells_members (isSpacing_newLine depth) fun n hn => ih n hn (depth + 1))
      simpa [writeAt] using hobject

/-- A value that can be written is spelled by what is written for it. -/
theorem spells_write {v : JsonValue} (h : IsWritable v) : Spells (.value v) (write v) :=
  spells_writeAt h 0

/-- A value that is written is read back as it was. -/
theorem read?_write {v : JsonValue} (h : IsWritable v) : read? (write v) = some v :=
  read?_eq_some_iff.mpr (spells_write h).element_of_value

end Concordance.JsonValue
