import Concordance.Proofs.JsonTokens
import Concordance.Proofs.Listing

set_option autoImplicit false

/-!
# The grammar of JSON

The strict grammar, as a relation between what is said and how it is written. The rules are those of
the standard: a value is a token, an array or an object; an element is a value with blanks around
it; a member is a key, a colon and an element. `Spells` has a rule for each production.

The reader decides this relation (`read?_eq_some_iff`). That it reads whatever is written goes by
induction on the rules, with any text behind a phrase that may follow it; the length of a phrase
bounds the steps that it takes. That it reads nothing else goes by induction on the steps.
-/

namespace Concordance.JsonValue

open Text

/-! ## The rules -/

/-- What the rules of the grammar are about. -/
inductive Phrase where
  | value (v : JsonValue)
  /-- A value with blanks around it. -/
  | element (v : JsonValue)
  | elements (items : List JsonValue)
  | member (m : JsonString × JsonValue)
  | members (list : List (JsonString × JsonValue))

/-- How a phrase is written. -/
inductive Spells : Phrase → Text → Prop
  | null : Spells (.value .null) "null"
  | isTrue : Spells (.value (.bool true)) "true"
  | isFalse : Spells (.value (.bool false)) "false"
  | number {n : Numeral} {t : Text} (h : SpellsNumeral n t) : Spells (.value (.number n)) t
  | string {s : JsonString} {t : Text} (h : SpellsString s t) : Spells (.value (.string s)) t
  | emptyArray {gap : Text} (h : IsSpacing gap) :
      Spells (.value (.array [])) ('[' :: (gap ++ [']']))
  | array {items : List JsonValue} {t : Text} (h : Spells (.elements items) t) :
      Spells (.value (.array items)) ('[' :: (t ++ [']']))
  | emptyObject {gap : Text} (h : IsSpacing gap) :
      Spells (.value (.object [])) ('\x7b' :: (gap ++ ['\x7d']))
  | object {list : List (JsonString × JsonValue)} {t : Text} (h : Spells (.members list) t) :
      Spells (.value (.object list)) ('\x7b' :: (t ++ ['\x7d']))
  | element {v : JsonValue} {before t after : Text} (hbefore : IsSpacing before)
      (h : Spells (.value v) t) (hafter : IsSpacing after) :
      Spells (.element v) (before ++ (t ++ after))
  | lastElement {v : JsonValue} {t : Text} (h : Spells (.element v) t) : Spells (.elements [v]) t
  | nextElement {v : JsonValue} {items : List JsonValue} {t u : Text} (h : Spells (.element v) t)
      (hrest : Spells (.elements items) u) : Spells (.elements (v :: items)) (t ++ ',' :: u)
  | member {k : JsonString} {v : JsonValue} {before key after t : Text} (hbefore : IsSpacing before)
      (hkey : SpellsString k key) (hafter : IsSpacing after) (h : Spells (.element v) t) :
      Spells (.member (k, v)) (before ++ (key ++ (after ++ ':' :: t)))
  | lastMember {m : JsonString × JsonValue} {t : Text} (h : Spells (.member m) t) :
      Spells (.members [m]) t
  | nextMember {m : JsonString × JsonValue} {list : List (JsonString × JsonValue)} {t u : Text}
      (h : Spells (.member m) t) (hrest : Spells (.members list) u) :
      Spells (.members (m :: list)) (t ++ ',' :: u)

variable {t u gap rest : Text} {c : Char}

/-! ## Tokens -/

/-- A string is read off whatever follows it. -/
theorem scalar?_string {s : JsonString} (h : SpellsString s t) (rest : Text) :
    scalar? (t ++ rest) = some (.string s, rest) := by
  obtain ⟨u, hu, hstring⟩ := string?_append h rest
  rw [hu, scalar?, hstring]
  rfl

/-- A text that does not begin with a quote is one of the three words or a number. -/
theorem scalar?_of_ne (h : t.head? ≠ some '"') :
    scalar? t = ((after? "null" t).map fun rest => (.null, rest)).or
      (((after? "true" t).map fun rest => (.bool true, rest)).or
        (((after? "false" t).map fun rest => (.bool false, rest)).or
          ((numeral? t).map fun read => (.number read.1, read.2)))) := by
  unfold scalar?
  split
  · simp at h
  · rfl

/-- A number is read off what can follow a value. -/
theorem scalar?_number {n : Numeral} (h : SpellsNumeral n t) (hrest : FollowsValue rest) :
    scalar? (t ++ rest) = some (.number n, rest) := by
  have hnumeral := numeral?_append h hrest
  obtain ⟨c, more, rfl, hc⟩ := h.exists_cons
  have hnull : after? "null" (c :: more ++ rest) = none := if_neg (ne_of_startsNumeral hc rfl)
  have htrue : after? "true" (c :: more ++ rest) = none := if_neg (ne_of_startsNumeral hc rfl)
  have hfalse : after? "false" (c :: more ++ rest) = none := if_neg (ne_of_startsNumeral hc rfl)
  rw [scalar?_of_ne, hnull, htrue, hfalse, hnumeral]
  · rfl
  · rintro ⟨⟩
    cases hc

/-- Each token is read off a text that starts with it. -/
theorem of_scalar? {v : JsonValue} (h : scalar? t = some (v, rest)) :
    ∃ u, Spells (.value v) u ∧ t = u ++ rest := by
  by_cases hquote : t.head? = some '"'
  · cases t with
    | nil => simp at hquote
    | cons c t =>
      obtain rfl : c = '"' := by simpa using hquote
      obtain ⟨⟨s, after⟩, hstring, heq⟩ := Option.map_eq_some_iff.mp h
      obtain ⟨rfl, rfl⟩ := Prod.mk.inj heq
      obtain ⟨u, hu, hsplit⟩ := of_string? hstring
      exact ⟨u, .string hu, hsplit⟩
  · rw [scalar?_of_ne hquote] at h
    simp only [Option.or_eq_some_iff, Option.map_eq_some_iff, Prod.mk.injEq] at h
    rcases h with ⟨u, hu, rfl, rfl⟩ | ⟨-, ⟨u, hu, rfl, rfl⟩ | ⟨-, ⟨u, hu, rfl, rfl⟩ |
      ⟨-, read, hread, rfl, rfl⟩⟩⟩
    · exact ⟨_, .null, after?_eq_some_iff.mp hu⟩
    · exact ⟨_, .isTrue, after?_eq_some_iff.mp hu⟩
    · exact ⟨_, .isFalse, after?_eq_some_iff.mp hu⟩
    · obtain ⟨u, hu, hsplit⟩ := of_numeral? hread
      exact ⟨u, .number hu, hsplit⟩

/-! ## Values -/

variable {steps : Nat} {v : JsonValue}

/-- Spacing before a value is passed over. -/
theorem value?_skipGap (t : Text) : value? steps (skipGap t) = value? steps t := by
  cases steps with
  | zero => rfl
  | succ steps =>
    unfold value?
    rw [skipGap_skipGap]

/-- Spacing before items is passed over. -/
theorem items?_skipGap (t : Text) : items? steps (skipGap t) = items? steps t := by
  cases steps with
  | zero => rfl
  | succ steps =>
    unfold items?
    rw [value?_skipGap]

/-- Spacing before members is passed over. -/
theorem members?_skipGap (t : Text) : members? steps (skipGap t) = members? steps t := by
  cases steps with
  | zero => rfl
  | succ steps =>
    unfold members?
    rw [key?_skipGap]

/-- A text that starts like no array and no object is read as a token. -/
theorem value?_of_token (hc : isGap c = false) (harray : c ≠ '[') (hobject : c ≠ '\x7b') :
    value? (steps + 1) (c :: t) = scalar? (c :: t) := by
  rw [value?, skipGap_cons_of_neg hc]
  split
  · next heq => exact absurd (List.cons.inj heq).1 harray
  · next heq => exact absurd (List.cons.inj heq).1 hobject
  · rfl

/-- Items do not begin with the bracket that closes an array. -/
theorem skipGap_ne_of_items? {items : List JsonValue} (h : items? steps t = some (items, rest))
    (u : Text) : skipGap t ≠ ']' :: u := by
  intro hskip
  have hnone : ∀ steps, value? steps (']' :: u) = none
    | 0 => rfl
    | _ + 1 => rfl
  rw [← items?_skipGap, hskip] at h
  cases steps with
  | zero => cases h
  | succ steps =>
    rw [items?, hnone] at h
    cases h

/-- Members do not begin with the brace that closes an object. -/
theorem skipGap_ne_of_members? {list : List (JsonString × JsonValue)}
    (h : members? steps t = some (list, rest)) (u : Text) : skipGap t ≠ '\x7d' :: u := by
  intro hskip
  rw [← members?_skipGap, hskip] at h
  cases steps with
  | zero => cases h
  | succ steps => cases h

/-- An opening bracket and items are an array. -/
theorem value?_array {items : List JsonValue} (h : items? steps t = some (items, rest)) :
    value? (steps + 1) ('[' :: t) = some (.array items, rest) := by
  rw [value?, skipGap_cons_of_neg rfl]
  simp only
  split
  · next u hu => exact absurd hu (skipGap_ne_of_items? h u)
  · rw [items?_skipGap, h]
    rfl

/-- An opening brace and members are an object. -/
theorem value?_object {list : List (JsonString × JsonValue)}
    (h : members? steps t = some (list, rest)) :
    value? (steps + 1) ('\x7b' :: t) = some (.object list, rest) := by
  rw [value?, skipGap_cons_of_neg rfl]
  simp only
  split
  · next u hu => exact absurd hu (skipGap_ne_of_members? h u)
  · rw [members?_skipGap, h]
    rfl

/-- Brackets around spacing are the empty array. -/
theorem value?_emptyArray (hgap : IsSpacing gap) :
    value? (steps + 1) ('[' :: (gap ++ ']' :: rest)) = some (.array [], rest) := by
  have hskip : skipGap (gap ++ ']' :: rest) = ']' :: rest := by
    rw [skipGap_append hgap, skipGap_cons_of_neg rfl]
  rw [value?, skipGap_cons_of_neg rfl]
  simp only [hskip]

/-- Braces around spacing are the empty object. -/
theorem value?_emptyObject (hgap : IsSpacing gap) :
    value? (steps + 1) ('\x7b' :: (gap ++ '\x7d' :: rest)) = some (.object [], rest) := by
  have hskip : skipGap (gap ++ '\x7d' :: rest) = '\x7d' :: rest := by
    rw [skipGap_append hgap, skipGap_cons_of_neg rfl]
  rw [value?, skipGap_cons_of_neg rfl]
  simp only [hskip]

section Lists

variable {items : List JsonValue} {list : List (JsonString × JsonValue)} {k : JsonString}
  {behind after : Text}

/-- A value before a closing bracket is the last item. -/
theorem items?_last (hvalue : value? steps t = some (v, after))
    (hafter : skipGap after = ']' :: rest) : items? (steps + 1) t = some ([v], rest) := by
  rw [items?, hvalue, Option.bind_eq_bind, Option.bind_some]
  simp only [hafter]

/-- A value before a comma is an item before others. -/
theorem items?_next (hvalue : value? steps t = some (v, after)) (hafter : skipGap after = ',' :: u)
    (hitems : items? steps u = some (items, rest)) :
    items? (steps + 1) t = some (v :: items, rest) := by
  rw [items?, hvalue, Option.bind_eq_bind, Option.bind_some]
  simp only [hafter, hitems, Option.bind_eq_bind, Option.bind_some]

/-- A key with a value before a closing brace is the last member. -/
theorem members?_last (hkey : key? t = some (k, behind))
    (hvalue : value? steps behind = some (v, after)) (hafter : skipGap after = '\x7d' :: rest) :
    members? (steps + 1) t = some ([(k, v)], rest) := by
  rw [members?, hkey, Option.bind_eq_bind, Option.bind_some]
  simp only [hvalue, Option.bind_eq_bind, Option.bind_some, hafter]

/-- A key with a value before a comma is a member before others. -/
theorem members?_next (hkey : key? t = some (k, behind))
    (hvalue : value? steps behind = some (v, after)) (hafter : skipGap after = ',' :: u)
    (hmembers : members? steps u = some (list, rest)) :
    members? (steps + 1) t = some ((k, v) :: list, rest) := by
  rw [members?, hkey, Option.bind_eq_bind, Option.bind_some]
  simp only [hvalue, Option.bind_eq_bind, Option.bind_some, hafter, hmembers]

end Lists

/-! ## What is written is read -/

/-- A phrase is read off a text in front of anything that may follow it. -/
def Phrase.IsReadOff (t : Text) : Phrase → Prop
  | value v => ∀ steps rest, 2 * t.length ≤ steps → FollowsValue rest →
      value? steps (t ++ rest) = some (v, rest)
  | element v => ∀ steps rest, 2 * t.length ≤ steps → FollowsElement rest →
      ∃ after, value? steps (t ++ rest) = some (v, after) ∧ skipGap after = rest
  | elements items => ∀ steps rest, 2 * t.length < steps →
      items? steps (t ++ ']' :: rest) = some (items, rest)
  | member m => ∀ steps rest, 2 * t.length ≤ steps → FollowsElement rest →
      ∃ behind after, key? (t ++ rest) = some (m.1, behind) ∧
        value? steps behind = some (m.2, after) ∧ skipGap after = rest
  | members list => ∀ steps rest, 2 * t.length < steps →
      members? steps (t ++ '\x7d' :: rest) = some (list, rest)

/-- A value that is read as one token is read off. -/
theorem isReadOff_of_token (hc : isGap c = false) (harray : c ≠ '[') (hobject : c ≠ '\x7b')
    (h : ∀ rest, FollowsValue rest → scalar? (c :: t ++ rest) = some (v, rest)) :
    (Phrase.value v).IsReadOff (c :: t) := by
  rintro (_ | steps) rest hsteps hrest
  · simp at hsteps
  · rw [← h rest hrest, List.cons_append, value?_of_token hc harray hobject]

/-- A number is read off. -/
theorem isReadOff_number {n : Numeral} (h : SpellsNumeral n t) :
    (Phrase.value (.number n)).IsReadOff t := by
  have hscalar : ∀ rest, FollowsValue rest → scalar? (t ++ rest) = some (.number n, rest) :=
    fun rest => scalar?_number h
  obtain ⟨c, more, rfl, hc⟩ := h.exists_cons
  exact isReadOff_of_token (isGap_eq_false_of_startsNumeral hc) (ne_of_startsNumeral hc rfl).symm
    (ne_of_startsNumeral hc rfl).symm hscalar

/-- A sign that ends an element can follow one. -/
theorem followsElement_cons (hc : endsElement c = true) : FollowsElement (c :: t) := by
  rintro d ⟨⟩
  exact hc

/-- Everything that the grammar allows is read. -/
theorem Spells.isReadOff {phrase : Phrase} (h : Spells phrase t) : phrase.IsReadOff t := by
  induction h with
  | null => exact isReadOff_of_token rfl (by decide) (by decide) fun rest _ => rfl
  | isTrue => exact isReadOff_of_token rfl (by decide) (by decide) fun rest _ => rfl
  | isFalse => exact isReadOff_of_token rfl (by decide) (by decide) fun rest _ => rfl
  | number h => exact isReadOff_number h
  | string h =>
    obtain ⟨h⟩ := h
    exact isReadOff_of_token rfl (by decide) (by decide) fun rest _ =>
      scalar?_string (.quoted h) rest
  | emptyArray hgap =>
    rintro (_ | steps) rest hsteps -
    · simp at hsteps
    · rw [List.cons_append, List.append_assoc]
      exact value?_emptyArray hgap
  | array h ih =>
    rintro (_ | steps) rest hsteps -
    · simp at hsteps
    · simp only [List.length_cons, List.length_append, List.length_nil] at hsteps
      rw [List.cons_append, List.append_assoc]
      exact value?_array (ih steps rest (by omega))
  | emptyObject hgap =>
    rintro (_ | steps) rest hsteps -
    · simp at hsteps
    · rw [List.cons_append, List.append_assoc]
      exact value?_emptyObject hgap
  | object h ih =>
    rintro (_ | steps) rest hsteps -
    · simp at hsteps
    · simp only [List.length_cons, List.length_append, List.length_nil] at hsteps
      rw [List.cons_append, List.append_assoc]
      exact value?_object (ih steps rest (by omega))
  | @element v before t after hbefore h hafter ih =>
    intro steps rest hsteps hrest
    simp only [List.length_append] at hsteps
    refine ⟨after ++ rest, ?_, by rw [skipGap_append hafter, hrest.skipGap_eq]⟩
    rw [← value?_skipGap, List.append_assoc, skipGap_append hbefore, value?_skipGap,
      List.append_assoc]
    exact ih steps (after ++ rest) (by omega) (hrest.append hafter)
  | lastElement h ih =>
    rintro (_ | steps) rest hsteps
    · simp at hsteps
    · obtain ⟨after, hvalue, hafter⟩ := ih steps (']' :: rest) (by omega) (followsElement_cons rfl)
      exact items?_last hvalue hafter
  | @nextElement v items t u h hrest ih ihrest =>
    rintro (_ | steps) rest hsteps
    · simp at hsteps
    · simp only [List.length_cons, List.length_append] at hsteps
      rw [List.append_assoc, List.cons_append]
      obtain ⟨after, hvalue, hafter⟩ :=
        ih steps (',' :: (u ++ ']' :: rest)) (by omega) (followsElement_cons rfl)
      exact items?_next hvalue hafter (ihrest steps rest (by omega))
  | @member k v before key after t hbefore hkey hafter h ih =>
    intro steps rest hsteps hrest
    simp only [List.length_cons, List.length_append] at hsteps
    obtain ⟨behind, hvalue, hbehind⟩ := ih steps rest (by omega) hrest
    refine ⟨t ++ rest, behind, ?_, hvalue, hbehind⟩
    rw [← key?_append hbefore hkey hafter]
    simp only [List.append_assoc, List.cons_append]
  | lastMember h ih =>
    rintro (_ | steps) rest hsteps
    · simp at hsteps
    · obtain ⟨behind, after, hkey, hvalue, hafter⟩ :=
        ih steps ('\x7d' :: rest) (by omega) (followsElement_cons rfl)
      exact members?_last hkey hvalue hafter
  | @nextMember m list t u h hrest ih ihrest =>
    rintro (_ | steps) rest hsteps
    · simp at hsteps
    · simp only [List.length_cons, List.length_append] at hsteps
      rw [List.append_assoc, List.cons_append]
      obtain ⟨behind, after, hkey, hvalue, hafter⟩ :=
        ih steps (',' :: (u ++ '\x7d' :: rest)) (by omega) (followsElement_cons rfl)
      exact members?_next hkey hvalue hafter (ihrest steps rest (by omega))

/-! ## What is read is written -/

/-- What is read within a number of steps is written as the grammar says. -/
structure ReadsGrammar (steps : Nat) : Prop where
  value : ∀ t v rest, value? steps t = some (v, rest) →
    ∃ before u, IsSpacing before ∧ Spells (.value v) u ∧ t = before ++ (u ++ rest)
  items : ∀ t items rest, items? steps t = some (items, rest) →
    ∃ u, Spells (.elements items) u ∧ t = u ++ ']' :: rest
  members : ∀ t list rest, members? steps t = some (list, rest) →
    ∃ u, Spells (.members list) u ∧ t = u ++ '\x7d' :: rest

namespace ReadsGrammar

/-- A value and the blanks behind it. -/
theorem element (h : ReadsGrammar steps) {after : Text}
    (hvalue : value? steps t = some (v, after)) :
    ∃ u, Spells (.element v) u ∧ t = u ++ skipGap after := by
  obtain ⟨before, u, hbefore, hu, rfl⟩ := h.value _ _ _ hvalue
  obtain ⟨gap, hgap, hafter⟩ := exists_skipGap after
  refine ⟨_, .element hbefore hu hgap, ?_⟩
  rw [List.append_assoc, List.append_assoc, ← hafter]

/-- One step more reads values by the grammar. -/
theorem value_succ (h : ReadsGrammar steps) (hvalue : value? (steps + 1) t = some (v, rest)) :
    ∃ before u, IsSpacing before ∧ Spells (.value v) u ∧ t = before ++ (u ++ rest) := by
  obtain ⟨before, hbefore, ht⟩ := exists_skipGap t
  rw [value?] at hvalue
  split at hvalue
  · next inner hinner =>
    obtain ⟨gap, hgap, hinner'⟩ := exists_skipGap inner
    rw [hinner] at ht
    simp only at hvalue
    split at hvalue
    · next behind hbehind =>
      obtain ⟨rfl, rfl⟩ := Prod.mk.inj (Option.some.inj hvalue)
      exact ⟨before, _, hbefore, .emptyArray hgap, by rw [ht, hinner', hbehind]; simp⟩
    · obtain ⟨⟨items, behind⟩, hitems, heq⟩ := Option.map_eq_some_iff.mp hvalue
      obtain ⟨rfl, rfl⟩ := Prod.mk.inj heq
      rw [items?_skipGap] at hitems
      obtain ⟨u, hu, rfl⟩ := h.items _ _ _ hitems
      exact ⟨before, _, hbefore, .array hu, by rw [ht]; simp⟩
  · next inner hinner =>
    obtain ⟨gap, hgap, hinner'⟩ := exists_skipGap inner
    rw [hinner] at ht
    simp only at hvalue
    split at hvalue
    · next behind hbehind =>
      obtain ⟨rfl, rfl⟩ := Prod.mk.inj (Option.some.inj hvalue)
      exact ⟨before, _, hbefore, .emptyObject hgap, by rw [ht, hinner', hbehind]; simp⟩
    · obtain ⟨⟨list, behind⟩, hmembers, heq⟩ := Option.map_eq_some_iff.mp hvalue
      obtain ⟨rfl, rfl⟩ := Prod.mk.inj heq
      rw [members?_skipGap] at hmembers
      obtain ⟨u, hu, rfl⟩ := h.members _ _ _ hmembers
      exact ⟨before, _, hbefore, .object hu, by rw [ht]; simp⟩
  · obtain ⟨u, hu, hsplit⟩ := of_scalar? hvalue
    exact ⟨before, u, hbefore, hu, by rw [ht, hsplit]⟩

/-- One step more reads items by the grammar. -/
theorem items_succ (h : ReadsGrammar steps) {items : List JsonValue}
    (hitems : items? (steps + 1) t = some (items, rest)) :
    ∃ u, Spells (.elements items) u ∧ t = u ++ ']' :: rest := by
  rw [items?] at hitems
  obtain ⟨⟨v, after⟩, hvalue, hlist⟩ := Option.bind_eq_some_iff.mp hitems
  obtain ⟨u, hu, ht⟩ := h.element hvalue
  simp only at hlist
  split at hlist
  · next behind hbehind =>
    obtain ⟨rfl, rfl⟩ := Prod.mk.inj (Option.some.inj hlist)
    exact ⟨u, .lastElement hu, by rw [ht, hbehind]⟩
  · next behind hbehind =>
    obtain ⟨⟨more, last⟩, hmore, heq⟩ := Option.bind_eq_some_iff.mp hlist
    obtain ⟨rfl, rfl⟩ := Prod.mk.inj (Option.some.inj heq)
    obtain ⟨w, hw, rfl⟩ := h.items _ _ _ hmore
    exact ⟨_, .nextElement hu hw, by rw [ht, hbehind, List.append_assoc, List.cons_append]⟩
  · cases hlist

/-- One step more reads members by the grammar. -/
theorem members_succ (h : ReadsGrammar steps) {list : List (JsonString × JsonValue)}
    (hmembers : members? (steps + 1) t = some (list, rest)) :
    ∃ u, Spells (.members list) u ∧ t = u ++ '\x7d' :: rest := by
  rw [members?] at hmembers
  obtain ⟨⟨k, colon⟩, hkey, hmember⟩ := Option.bind_eq_some_iff.mp hmembers
  obtain ⟨⟨v, after⟩, hvalue, hlist⟩ := Option.bind_eq_some_iff.mp hmember
  obtain ⟨before, key, gap, hbefore, hword, hgap, ht⟩ := of_key? hkey
  obtain ⟨u, hu, rfl⟩ := h.element hvalue
  have hspelled := Spells.member hbefore hword hgap hu
  simp only at hlist
  split at hlist
  · next behind hbehind =>
    obtain ⟨rfl, rfl⟩ := Prod.mk.inj (Option.some.inj hlist)
    exact ⟨_, .lastMember hspelled, by simp only [ht, hbehind, List.append_assoc, List.cons_append]⟩
  · next behind hbehind =>
    obtain ⟨⟨more, last⟩, hmore, heq⟩ := Option.bind_eq_some_iff.mp hlist
    obtain ⟨rfl, rfl⟩ := Prod.mk.inj (Option.some.inj heq)
    obtain ⟨w, hw, rfl⟩ := h.members _ _ _ hmore
    refine ⟨_, .nextMember hspelled hw, ?_⟩
    simp only [ht, hbehind, List.append_assoc, List.cons_append]
  · cases hlist

end ReadsGrammar

/-- In any number of steps only what the grammar spells is read. -/
theorem readsGrammar (steps : Nat) : ReadsGrammar steps := by
  induction steps with
  | zero =>
    constructor
    · intro t v rest h
      cases h
    · intro t items rest h
      cases h
    · intro t list rest h
      cases h
  | succ steps ih =>
    exact ⟨fun _ _ _ => ih.value_succ, fun _ _ _ => ih.items_succ, fun _ _ _ => ih.members_succ⟩

/-- The reader reads the texts of the grammar and no others. -/
theorem read?_eq_some_iff : read? t = some v ↔ Spells (.element v) t := by
  constructor
  · intro h
    obtain ⟨⟨w, rest⟩, hvalue, h⟩ := Option.bind_eq_some_iff.mp h
    obtain ⟨hrest, rfl⟩ : skipGap rest = [] ∧ w = v := by simpa using h
    obtain ⟨u, hu, ht⟩ := (readsGrammar _).element hvalue
    rwa [ht, hrest, List.append_nil]
  · intro h
    obtain ⟨after, hvalue, hafter⟩ := h.isReadOff (2 * t.length + 2) [] (by omega) (by rintro c ⟨⟩)
    rw [List.append_nil] at hvalue
    simp [read?, hvalue, hafter]

/-! ## Objects -/

/-- A text is an object of JSON, from its opening brace to its closing one. -/
def IsObject (t : Text) : Prop := ∃ list, Spells (.value (.object list)) t

/-- A value is an element without spacing around it. -/
theorem Spells.element_of_value (h : Spells (.value v) t) : Spells (.element v) t := by
  have helement : Spells (.element v) ([] ++ (t ++ [])) :=
    .element isSpacing_nil h isSpacing_nil
  rwa [List.append_nil] at helement

/-- An element is a value with spacing around it. -/
theorem Spells.exists_value (h : Spells (.element v) t) :
    ∃ before u after, IsSpacing before ∧ Spells (.value v) u ∧ IsSpacing after ∧
      t = before ++ (u ++ after) := by
  cases h with
  | element hbefore hu hafter => exact ⟨_, _, _, hbefore, hu, hafter, rfl⟩

/-- A value that begins with a brace is an object. -/
theorem Spells.exists_object (h : Spells (.value v) t) (hbrace : t.head? = some '\x7b') :
    ∃ list, v = .object list := by
  cases h with
  | null => cases hbrace
  | isTrue => cases hbrace
  | isFalse => cases hbrace
  | number h =>
    obtain ⟨c, more, rfl, hc⟩ := h.exists_cons
    obtain rfl : c = '\x7b' := by simpa using hbrace
    cases hc
  | string h =>
    obtain ⟨h⟩ := h
    cases hbrace
  | emptyArray => cases hbrace
  | array => cases hbrace
  | emptyObject => exact ⟨_, rfl⟩
  | object => exact ⟨_, rfl⟩

/-- An object is a text that can be read and that stands between braces. -/
theorem isObject_iff :
    IsObject t ↔
      (read? t).isSome = true ∧ t.head? = some '\x7b' ∧ t.getLast? = some '\x7d' := by
  constructor
  · rintro ⟨list, h⟩
    refine ⟨by rw [read?_eq_some_iff.mpr h.element_of_value]; rfl, ?_⟩
    cases h with
    | emptyObject => exact ⟨rfl, by rw [← List.cons_append, List.getLast?_concat]⟩
    | object => exact ⟨rfl, by rw [← List.cons_append, List.getLast?_concat]⟩
  · rintro ⟨hread, hfirst, hlast⟩
    obtain ⟨v, hv⟩ := Option.isSome_iff_exists.mp hread
    obtain ⟨before, u, after, hbefore, hu, hafter, rfl⟩ := (read?_eq_some_iff.mp hv).exists_value
    obtain rfl : before = [] := by
      cases before with
      | nil => rfl
      | cons c before =>
        obtain rfl : c = '\x7b' := by simpa using hfirst
        cases hbefore _ List.mem_cons_self
    obtain rfl : after = [] := by
      rcases List.eq_nil_or_concat' after with rfl | ⟨gap, c, rfl⟩
      · rfl
      · rw [← List.append_assoc, ← List.append_assoc, List.getLast?_concat] at hlast
        obtain rfl : c = '\x7d' := by simpa using hlast
        cases hafter '\x7d' (by simp)
    rw [List.nil_append, List.append_nil] at hfirst ⊢
    obtain ⟨list, rfl⟩ := hu.exists_object hfirst
    exact ⟨list, hu⟩

instance (t : Text) : Decidable (IsObject t) := decidable_of_iff _ isObject_iff.symm

end Concordance.JsonValue
