import Concordance.Proofs.Nesting
import Concordance.Source.Reader

set_option autoImplicit false

/-!
# What a declaration is read as

A method is declared by blanks, perhaps the word for asynchronous methods, its name, a parameter
list in parentheses and perhaps a return type. The recogniser of heads takes the name for what it
is, whatever keywords it begins with, since no blank can stand in it (`parse?_declared`). The reader
of signatures looks for the first occurrence of the name, which may lie before the name itself, but
never behind it, and goes on to the parameter list from there (`readSignature_declared`).
-/

namespace Concordance

/-! ## Blanks and identifiers -/

namespace Text

/-- The code points of blanks. -/
def blankCodes : List Nat :=
  [0x9, 0xA, 0xB, 0xC, 0xD, 0x20, 0x85, 0xA0, 0x1680, 0x2000, 0x2001, 0x2002, 0x2003, 0x2004,
    0x2005, 0x2006, 0x2007, 0x2008, 0x2009, 0x200A, 0x2028, 0x2029, 0x202F, 0x205F, 0x3000]

/-- Every blank is one of the listed code points. -/
theorem mem_blankCodes_of_isBlank {c : Char} (h : isBlank c = true) : c.toNat ∈ blankCodes := by
  simp only [isBlank, Bool.or_eq_true, Bool.and_eq_true, decide_eq_true_eq, beq_iff_eq] at h
  simp only [blankCodes, List.mem_cons, List.not_mem_nil, or_false]
  omega

/-- Behind a text that stands in front comes the rest. -/
@[simp] theorem after?_append (lead t : Text) : after? lead (lead ++ t) = some t :=
  after?_eq_some_iff.mpr rfl

end Text

namespace Lexeme

open Text

/-- A text is an identifier, as a whole. -/
def IsIdentifier (t : Text) : Prop := identifier? t = some (t, [])

instance (t : Text) : Decidable (IsIdentifier t) := inferInstanceAs (Decidable (_ = _))

/-- No blank can stand in an identifier. -/
theorem isBlank_eq_false_of_identifier {c : Char}
    (h : startsIdentifier c = true ∨ inIdentifier c = true) : isBlank c = false := by
  have hnone : (blankCodes.all fun n =>
      !(startsIdentifier (Char.ofNat n) || inIdentifier (Char.ofNat n))) = true := by
    decide +kernel
  rw [← Bool.not_eq_true]
  intro hblank
  have hcode := List.all_eq_true.mp hnone _ (mem_blankCodes_of_isBlank hblank)
  rw [Char.ofNat_toNat] at hcode
  rcases h with h | h <;> simp [h] at hcode

variable {name word rest : Text} {c : Char}

/-- An identifier has a first character, and all others may follow in one. -/
theorem IsIdentifier.exists_cons (h : IsIdentifier name) :
    ∃ c t, name = c :: t ∧ startsIdentifier c = true ∧ ∀ d ∈ t, inIdentifier d = true := by
  unfold IsIdentifier at h
  cases name with
  | nil => simp [identifier?] at h
  | cons c t =>
    simp only [identifier?] at h
    split at h
    · next hc =>
      refine ⟨c, t, rfl, hc, ?_⟩
      have hall : t.takeWhile inIdentifier = t := by simpa using h
      exact List.takeWhile_eq_self_iff.mp hall
    · cases h

/-- A character of an identifier may begin one or follow in one. -/
theorem IsIdentifier.char (h : IsIdentifier name) (hc : c ∈ name) :
    startsIdentifier c = true ∨ inIdentifier c = true := by
  obtain ⟨d, t, rfl, hd, ht⟩ := h.exists_cons
  rcases List.mem_cons.mp hc with rfl | hc
  · exact Or.inl hd
  · exact Or.inr (ht c hc)

/-- What may neither begin nor follow in an identifier is not in one. -/
theorem IsIdentifier.not_mem (h : IsIdentifier name)
    (hc : (startsIdentifier c || inIdentifier c) = false) : c ∉ name := by
  intro hmem
  rcases h.char hmem with hc' | hc' <;> simp [hc'] at hc

/-- An identifier has no blanks at its ends. -/
theorem IsIdentifier.trim (h : IsIdentifier name) : trim name = name :=
  trim_eq_self_of_forall fun _ hc => isBlank_eq_false_of_identifier (h.char hc)

/-- An identifier goes up to the first character that cannot stand in it. -/
theorem identifier?_append (h : IsIdentifier name) (hc : inIdentifier c = false) (rest : Text) :
    identifier? (name ++ c :: rest) = some (name, c :: rest) := by
  obtain ⟨d, t, rfl, hd, ht⟩ := h.exists_cons
  have htake : (t ++ c :: rest).takeWhile inIdentifier = t := by
    rw [List.takeWhile_append_of_pos ht, List.takeWhile_cons_of_neg (by simp [hc]), List.append_nil]
  have hdrop : (t ++ c :: rest).dropWhile inIdentifier = c :: rest := by
    rw [List.dropWhile_append_of_pos ht, List.dropWhile_cons_of_neg (by simp [hc])]
  rw [List.cons_append, identifier?, if_pos hd, htake, hdrop]

/-- An identifier stands at the start of a text as it is. -/
theorem trimStart_append_of_identifier (h : IsIdentifier name) (rest : Text) :
    trimStart (name ++ rest) = name ++ rest := by
  obtain ⟨d, t, rfl, hd, -⟩ := h.exists_cons
  exact trimStartOf_cons_of_neg (isBlank_eq_false_of_identifier (Or.inl hd))

/-- A name with a parenthesis behind it does not begin with a keyword: a blank would have to follow,
and there is none in the name. -/
theorem keyword?_eq_none_of_identifier (hname : IsIdentifier name) (hword : '(' ∉ word)
    (rest : Text) : keyword? word (name ++ '(' :: rest) = none := by
  rw [← Option.not_isSome_iff_eq_none, Option.isSome_iff_exists]
  rintro ⟨u, hu⟩
  obtain ⟨v, hv, hb⟩ := Option.bind_eq_some_iff.mp hu
  have hsplit := after?_eq_some_iff.mp hv
  cases v with
  | nil => simp [blanks?] at hb
  | cons b v =>
    have hblank : isBlank b = true := by
      simp only [blanks?] at hb
      split at hb
      · assumption
      · cases hb
    have hparen : b ≠ '(' := by
      rintro rfl
      revert hblank
      decide
    rcases List.append_eq_append_iff.mp hsplit with ⟨a, rfl, ha⟩ | ⟨a, rfl, ha⟩
    · cases a with
      | nil => exact hparen (List.cons.inj ha).1.symm
      | cons d a =>
        obtain ⟨rfl, -⟩ := List.cons.inj ha
        simp at hword
    · cases a with
      | nil => exact hparen (List.cons.inj ha).1
      | cons d a =>
        obtain ⟨rfl, -⟩ := List.cons.inj ha
        have hchar := isBlank_eq_false_of_identifier (hname.char (c := b) (by simp))
        rw [hblank] at hchar
        cases hchar

end Lexeme

/-! ## Heads -/

namespace MethodHead

open Text Lexeme

variable {name indent : Text}

/-- A name with a parenthesis behind it is read as the name of a method. -/
theorem named?_declared (hname : IsIdentifier name) (isAsync : Bool) (rest : Text) :
    named? isAsync (name ++ '(' :: rest) = some ⟨name, isAsync⟩ := by
  have hparen : trimStart ('(' :: rest) = '(' :: rest := trimStartOf_cons_of_neg (by decide)
  have htypes : skipTypeParameters ('(' :: rest) = '(' :: rest := rfl
  unfold named?
  rw [identifier?_append hname (by decide) rest]
  simp only [Option.bind_eq_bind, Option.bind_some]
  rw [hparen, htypes, hparen]
  rfl

/-- What comes after the modifiers of a declaration. -/
theorem afterModifiers_of_none {α : Type} {words : List Text} {next : Text → Option α} {t : Text}
    (h : ∀ word ∈ words, keyword? word t = none) : afterModifiers words next t = next t := by
  have hnone : anyKeyword? words t = none := List.findSome?_eq_none_iff.mpr h
  rw [afterModifiers]
  split
  · next rest hrest =>
    rw [hnone] at hrest
    cases hrest
  · rfl

/-- The word async is none of the modifiers that stand before it. -/
theorem keyword?_modifier_async (rest : Text) :
    ∀ word ∈ modifiers, keyword? word (("async " : Text) ++ rest) = none := by
  intro word hword
  simp only [modifiers, List.mem_cons, List.not_mem_nil, or_false] at hword
  rcases hword with rfl | rfl | rfl | rfl | rfl | rfl <;> rfl

/-- A declaration is read as the head that it was written for, whatever follows the parenthesis. -/
theorem parse?_declared (hindent : ∀ c ∈ indent, isBlank c = true) (hname : IsIdentifier name)
    (isAsync : Bool) (rest : Text) :
    parse? (indent ++ (onlyIf isAsync "async " ++ (name ++ '(' :: rest))) =
      some ⟨name, isAsync⟩ := by
  have htrim : ∀ t, trimStart t = t → trimStart (indent ++ t) = t := by
    intro t ht
    unfold trimStart trimStartOf at ht ⊢
    rw [List.dropWhile_append_of_pos hindent, ht]
  have hparens : ∀ word ∈ modifiers, '(' ∉ word := by decide
  unfold parse?
  cases isAsync with
  | true =>
    have hstart : trimStart (("async " : Text) ++ (name ++ '(' :: rest)) =
        ("async " : Text) ++ (name ++ '(' :: rest) := rfl
    have hasync : keyword? "async" (("async " : Text) ++ (name ++ '(' :: rest)) =
        some (name ++ '(' :: rest) := by
      have hblanks : keyword? "async" (("async " : Text) ++ (name ++ '(' :: rest)) =
          some (trimStart (name ++ '(' :: rest)) := rfl
      rw [hblanks, trimStart_append_of_identifier hname]
    simp only [onlyIf, if_true]
    rw [htrim _ hstart, afterModifiers_of_none (keyword?_modifier_async _), hasync,
      Option.bind_some, named?_declared hname]
    rfl
  | false =>
    have hstart := trimStart_append_of_identifier hname ('(' :: rest)
    simp only [onlyIf, Bool.false_eq_true, if_false, List.nil_append]
    rw [htrim _ hstart, afterModifiers_of_none fun word hword =>
        keyword?_eq_none_of_identifier hname (hparens word hword) rest,
      keyword?_eq_none_of_identifier hname (by decide) rest, named?_declared hname]
    rfl

/-- A line that declares a method is taken for its beginning, unless the line ends with a semicolon
or mentions the database. -/
theorem ofLine?_declared (line : Text) {tail : Text} {isAsync : Bool}
    (hline : line = indent ++ (onlyIf isAsync "async " ++ (name ++ '(' :: tail)))
    (hindent : ∀ c ∈ indent, isBlank c = true) (hname : IsIdentifier name)
    (hreserved : ∀ word ∈ reserved, name ≠ word) (hend : endsWith ";" (trimEnd line) = false) :
    ofLine? line =
      if contains (memberAccess persistenceHandle) line then none else some ⟨name, isAsync⟩ := by
  have hparse : parse? line = some ⟨name, isAsync⟩ := by
    rw [hline]
    exact parse?_declared hindent hname isAsync tail
  have hword : (reserved.any fun word => word = name) = false := by
    rw [List.any_eq_false]
    intro word hword heq
    exact hreserved word hword (of_decide_eq_true heq).symm
  unfold ofLine?
  rw [hparse, Option.filter_some, hword, hend]
  cases contains (memberAccess persistenceHandle) line <;> rfl

end MethodHead

/-! ## Signatures -/

namespace Text

/-- Before a text that stands at the end comes the rest. -/
@[simp] theorem before?_append (t tail : Text) : before? tail (t ++ tail) = some t := by
  simp [before?]

/-- What a text ends with, blanks aside, is seen at its last character if that is none. -/
theorem endsWith_trimEnd_concat {c : Char} (hc : isBlank c = false) (d : Char) (front : Text) :
    endsWith [d] (trimEnd (front ++ [c])) = decide (d = c) := by
  have htrim : trimEnd (front ++ [c]) = front ++ [c] := by
    apply trimEndOf_eq_self_of_getLast?
    intro e he
    obtain rfl : c = e := by simpa using he
    exact hc
  rw [htrim, Bool.eq_iff_iff, endsWith_iff, decide_eq_true_eq]
  constructor
  · intro hsuffix
    have hlast := hsuffix.getLast (by simp)
    simpa using hlast
  · rintro rfl
    exact List.suffix_append _ _

/-- A text closes what it opens, and nothing else: no beginning of it has more closing than opening
characters, and it has as many of both as a whole. -/
def IsBalanced (opening closing : Char) (t : Text) : Prop :=
  List.count closing t = List.count opening t ∧
    ∀ front ∈ t.inits, List.count closing front ≤ List.count opening front

instance (opening closing : Char) (t : Text) : Decidable (IsBalanced opening closing t) :=
  inferInstanceAs (Decidable (_ ∧ _))

/-- Balanced parentheses end at the first one that closes more than it opens. -/
theorem parenthesized_append {inner : Text} (h : IsBalanced '(' ')' inner) (tail : Text) :
    parenthesized (inner ++ ')' :: tail) = some (inner, tail) := by
  have hdisjoint : ∀ c : Char, decide (c = '(') = true → decide (c = ')') = false := by
    intro c hc
    simp only [decide_eq_true_eq] at hc
    subst hc
    rfl
  have hinner : Descends (· = '(') (· = ')') 0 inner := h
  exact enclosedFrom_append hdisjoint hinner (by simp) tail

/-- A text that holds a needle is cut at this needle or before it. -/
theorem cutAtText_append (needle front rest : Text) :
    ∃ skipped middle,
      cutAtText needle (front ++ (needle ++ rest)) = some (skipped, middle ++ rest) ∧
        middle <:+ front ++ needle := by
  induction front with
  | nil =>
    refine ⟨[], [], ?_, List.nil_suffix⟩
    have hafter := after?_append needle rest
    rw [List.nil_append, List.nil_append]
    cases hwhole : needle ++ rest with
    | nil =>
      rw [hwhole] at hafter
      rw [cutAtText, hafter]
      rfl
    | cons c t =>
      rw [hwhole] at hafter
      rw [cutAtText, hafter]
  | cons c front ih =>
    rw [List.cons_append, cutAtText]
    cases hafter : after? needle (c :: (front ++ (needle ++ rest))) with
    | none =>
      obtain ⟨skipped, middle, hcut, hmiddle⟩ := ih
      refine ⟨c :: skipped, middle, ?_, hmiddle.trans (List.suffix_cons c _)⟩
      rw [hcut]
      rfl
    | some left =>
      refine ⟨[], (c :: (front ++ needle)).drop needle.length, ?_, List.drop_suffix _ _⟩
      have hsplit : (c :: (front ++ needle)) ++ rest = needle ++ left := by
        have := after?_eq_some_iff.mp hafter
        simpa using this
      have hleft : left = (c :: (front ++ needle)).drop needle.length ++ rest := by
        have hdrop := congrArg (List.drop needle.length) hsplit
        rw [List.drop_append_of_le_length (by simp; omega), List.drop_left] at hdrop
        exact hdrop.symm
      simp only [hleft]

end Text

namespace SourceModule

open Text

/-- The parameter list is the one behind the name, and the return type is read from what follows it;
there are neither if the list is not closed. -/
theorem readSignature_declared {indent name : Text} (hindent : ∀ c ∈ indent, isBlank c = true)
    (isAsync : Bool) (hname : Lexeme.IsIdentifier name) (tail : Text) :
    readSignature name (indent ++ (onlyIf isAsync "async " ++ (name ++ '(' :: tail))) =
      ((parenthesized tail).map fun list =>
        (Parameters.parse list.1, returnType list.2)).getD ([], []) := by
  have hblank : '(' ∉ indent := by
    intro hmem
    have hparen := hindent _ hmem
    revert hparen
    decide
  have hasync : '(' ∉ onlyIf isAsync "async " := by cases isAsync <;> decide
  have hfront : '(' ∉ indent ++ onlyIf isAsync "async " ++ name := by
    simp only [List.mem_append, not_or]
    exact ⟨⟨hblank, hasync⟩, hname.not_mem (by decide)⟩
  obtain ⟨skipped, middle, hcut, hmiddle⟩ :=
    cutAtText_append name (indent ++ onlyIf isAsync "async ") ('(' :: tail)
  have hparen : '(' ∉ middle := fun hmem => hfront (hmiddle.mem hmem)
  unfold readSignature
  rw [← List.append_assoc, hcut]
  simp only [Option.map_some, Option.getD_some]
  rw [cutAt_append hparen, Option.bind_some]
  cases parenthesized tail <;> rfl

/-- A return type between a colon and the brace that opens the body is read as it is. -/
theorem returnType_annotated {type : Text} (htype : trim type = type) :
    returnType ((": " : Text) ++ (type ++ " \x7b")) = type := by
  have htail : trim ((": " : Text) ++ (type ++ " \x7b")) = (": " : Text) ++ (type ++ " \x7b") := by
    rw [← List.append_assoc]
    apply trim_append (by simp) _ (by simp) (by decide)
    exact trimStartOf_cons_of_neg (by decide)
  have hafter : after? ":" ((": " : Text) ++ (type ++ " \x7b")) =
      some (' ' :: (type ++ " \x7b")) := rfl
  have hfront : ∃ front, trim (type ++ " \x7b") = front ++ "\x7b" ∧ trim front = type := by
    by_cases hnil : type = []
    · subst hnil
      exact ⟨[], by decide, by decide⟩
    · refine ⟨type ++ " ", ?_, ?_⟩
      · rw [trim_append hnil (trimStart_eq_self_of_trim htype) (by simp) (by decide),
          List.append_assoc]
        rfl
      · unfold trim
        rw [trimStart, trimStartOf_append hnil (trimStart_eq_self_of_trim htype), trimEnd,
          trimEndOf_append, if_pos (by decide)]
        exact trimEnd_eq_self_of_trim htype
  obtain ⟨front, hbrace, htrim⟩ := hfront
  unfold returnType
  simp only [htail, hafter, trim_cons_of_isBlank (c := ' ') (by decide), hbrace, before?_append,
    Option.getD_some, htrim]

/-- A brace alone is no return type. -/
theorem returnType_brace : returnType " \x7b" = [] := by decide

end SourceModule

end Concordance
