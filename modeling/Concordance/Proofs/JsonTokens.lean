import Concordance.Json.Reader
import Mathlib.Data.List.DropRight

set_option autoImplicit false

/-!
# The tokens of JSON

How numerals and string literals are written, as relations between what is meant and the text. A
numeral has an optional sign, a whole part without leading zeros, and perhaps a fraction and an
exponent. A string literal holds plain characters, short escapes and escaped code units. Each reader
of a token takes just what is written and leaves what stands behind it, for a numeral as long as
that does not go on with one.
-/

namespace Concordance.JsonValue

open Text

/-! ## How tokens are written -/

/-- Blanks, or nothing. -/
def IsSpacing (t : Text) : Prop := ∀ c ∈ t, isGap c = true

/-- One digit or more. -/
def IsDigits (t : Text) : Prop := t ≠ [] ∧ ∀ c ∈ t, c.isDigit = true

/-- The whole part of a numeral: a zero, or digits that do not start with one. -/
def IsWholePart (t : Text) : Prop := t = ['0'] ∨ IsDigits t ∧ t.head? ≠ some '0'

/-- The sign of a numeral. -/
def minus (negative : Bool) : Text := if negative then ['-'] else []

/-- How the fraction of a numeral is written. -/
inductive SpellsFraction : Text → Text → Prop
  | absent : SpellsFraction [] []
  | point {digits : Text} (h : IsDigits digits) : SpellsFraction digits ('.' :: digits)

/-- How the sign of an exponent is written, by whether it is negative. -/
inductive SpellsSign : Bool → Text → Prop
  | absent : SpellsSign false []
  | plus : SpellsSign false ['+']
  | minus : SpellsSign true ['-']

/-- How the exponent of a numeral is written. -/
inductive SpellsExponent : Option (Bool × Text) → Text → Prop
  | absent : SpellsExponent none []
  | marked {mark : Char} {negative : Bool} {sign digits : Text} (hmark : mark = 'e' ∨ mark = 'E')
      (hsign : SpellsSign negative sign) (hdigits : IsDigits digits) :
      SpellsExponent (some (negative, digits)) (mark :: (sign ++ digits))

/-- How a numeral is written. -/
inductive SpellsNumeral : Numeral → Text → Prop
  | parts {negative : Bool} {whole fraction point power : Text} {exponent : Option (Bool × Text)}
      (hwhole : IsWholePart whole) (hfraction : SpellsFraction fraction point)
      (hexponent : SpellsExponent exponent power) :
      SpellsNumeral ⟨negative, whole, fraction, exponent⟩
        (minus negative ++ (whole ++ (point ++ power)))

/-- How the elements of a string literal are written. -/
inductive SpellsElements : List Element → Text → Prop
  | nil : SpellsElements [] []
  | plain {c : Char} {elements : List Element} {t : Text} (hquote : c ≠ '"') (hslash : c ≠ '\\')
      (hcontrol : 0x20 ≤ c.toNat) (h : SpellsElements elements t) :
      SpellsElements (.char c :: elements) (c :: t)
  | escape {e c : Char} {elements : List Element} {t : Text} (he : shortEscape? e = some c)
      (h : SpellsElements elements t) : SpellsElements (.char c :: elements) ('\\' :: e :: t)
  | code {a b c d : Char} {n : Nat} {elements : List Element} {t : Text}
      (hn : codeUnit? a b c d = some n) (h : SpellsElements elements t) :
      SpellsElements (.code n :: elements) ('\\' :: 'u' :: a :: b :: c :: d :: t)

/-- How a string is written. -/
inductive SpellsString : JsonString → Text → Prop
  | quoted {elements : List Element} {t : Text} (h : SpellsElements elements t) :
      SpellsString (textOf elements) ('"' :: (t ++ ['"']))

/-! ## Blanks -/

/-- Whether a character ends an element. -/
def endsElement (c : Char) : Bool := c = ',' || c = ']' || c = '\x7d'

/-- What can stand behind an element. -/
def FollowsElement (t : Text) : Prop := ∀ c, t.head? = some c → endsElement c = true

/-- What can stand behind a value. -/
def FollowsValue (t : Text) : Prop := ∀ c, t.head? = some c → isGap c = true ∨ endsElement c = true

/-- A text does not start with a character of a class. -/
def Avoids (p : Char → Bool) (t : Text) : Prop := ∀ c, t.head? = some c → p c = false

variable {p : Char → Bool} {t u gap rest digits : Text} {c : Char}

/-- A sign that ends an element is no spacing. -/
theorem isGap_eq_false_of_endsElement (h : endsElement c = true) : isGap c = false := by
  simp only [endsElement, Bool.or_eq_true, decide_eq_true_eq] at h
  rcases h with (rfl | rfl) | rfl <;> rfl

/-- The empty text is spacing. -/
@[simp] theorem isSpacing_nil : IsSpacing [] := by
  rintro c ⟨⟩

/-- Spacing in front is passed over. -/
theorem skipGap_append (hgap : IsSpacing gap) (t : Text) : skipGap (gap ++ t) = skipGap t :=
  List.dropWhile_append_of_pos hgap

/-- Where there is no spacing nothing is passed over. -/
theorem skipGap_cons_of_neg (hc : isGap c = false) : skipGap (c :: t) = c :: t :=
  List.dropWhile_cons_of_neg (by simp [hc])

/-- Spacing is passed over at once. -/
@[simp] theorem skipGap_skipGap (t : Text) : skipGap (skipGap t) = skipGap t :=
  List.dropWhile_idempotent isGap t

/-- What follows an element has no spacing in front. -/
theorem FollowsElement.skipGap_eq (h : FollowsElement t) : skipGap t = t := by
  cases t with
  | nil => rfl
  | cons c t => exact skipGap_cons_of_neg (isGap_eq_false_of_endsElement (h c rfl))

/-- Spacing before what follows an element can follow a value. -/
theorem FollowsElement.append (hgap : IsSpacing gap) (h : FollowsElement t) :
    FollowsValue (gap ++ t) := by
  intro c hc
  cases gap with
  | nil => exact Or.inr (h c hc)
  | cons d gap =>
    obtain rfl : d = c := by simpa using hc
    exact Or.inl (hgap d List.mem_cons_self)

/-- What stands before a text without its leading blanks is blank. -/
theorem exists_skipGap (t : Text) : ∃ gap, IsSpacing gap ∧ t = gap ++ skipGap t :=
  ⟨t.takeWhile isGap, fun _ hc => List.mem_takeWhile_imp hc, List.takeWhile_append_dropWhile.symm⟩

/-! ## Numerals -/

/-- Digits are read up to the first character that is none. -/
theorem digits?_append (h : IsDigits digits) (hrest : Avoids Char.isDigit rest) :
    digits? (digits ++ rest) = some (digits, rest) := by
  have htake : rest.takeWhile Char.isDigit = [] := by
    cases rest with
    | nil => rfl
    | cons c rest => simp [hrest c rfl]
  have hdrop : rest.dropWhile Char.isDigit = rest := by
    cases rest with
    | nil => rfl
    | cons c rest => simp [hrest c rfl]
  unfold digits?
  rw [List.takeWhile_append_of_pos h.2, List.dropWhile_append_of_pos h.2, htake, hdrop,
    List.append_nil, if_neg (by simpa using h.1)]

/-- What is read as digits are digits in front. -/
theorem of_digits? (h : digits? t = some (digits, rest)) :
    IsDigits digits ∧ t = digits ++ rest := by
  unfold digits? at h
  simp only [Option.ite_none_left_eq_some, Option.some.injEq, Prod.mk.injEq] at h
  obtain ⟨hne, rfl, rfl⟩ := h
  exact ⟨⟨by simpa using hne, fun _ hc => List.mem_takeWhile_imp hc⟩,
    List.takeWhile_append_dropWhile.symm⟩

/-- A whole part without a zero in front is its digits. -/
theorem whole?_of_ne (h : t.head? ≠ some '0') : whole? t = digits? t := by
  unfold whole?
  split
  · simp at h
  · rfl

/-- A whole part is read up to the first character that is no digit. -/
theorem whole?_append {whole : Text} (h : IsWholePart whole)
    (hrest : Avoids Char.isDigit rest) :
    whole? (whole ++ rest) = some (whole, rest) := by
  rcases h with rfl | ⟨hdigits, hzero⟩
  · rfl
  · rw [whole?_of_ne, digits?_append hdigits hrest]
    rwa [List.head?_append_of_ne_nil _ hdigits.1]

/-- What is read as a whole part is one in front. -/
theorem of_whole? {whole : Text} (h : whole? t = some (whole, rest)) :
    IsWholePart whole ∧ t = whole ++ rest := by
  by_cases hzero : t.head? = some '0'
  · obtain ⟨u, rfl⟩ : ∃ u, t = '0' :: u := by
      cases t with
      | nil => simp at hzero
      | cons c u => exact ⟨u, by simpa using hzero⟩
    obtain ⟨rfl, rfl⟩ : ['0'] = whole ∧ u = rest := by simpa [whole?] using h
    exact ⟨Or.inl rfl, rfl⟩
  · rw [whole?_of_ne hzero] at h
    obtain ⟨hdigits, rfl⟩ := of_digits? h
    rw [List.head?_append_of_ne_nil _ hdigits.1] at hzero
    exact ⟨Or.inr ⟨hdigits, hzero⟩, rfl⟩

/-- A fraction is read up to the first character that is no digit. -/
theorem fraction?_append {fraction point : Text} (h : SpellsFraction fraction point)
    (hpoint : Avoids (· = '.') rest) (hrest : Avoids Char.isDigit rest) :
    fraction? (point ++ rest) = some (fraction, rest) := by
  cases h with
  | absent =>
    rw [List.nil_append]
    unfold fraction?
    split
    · next u => simpa using hpoint '.' rfl
    · rfl
  | point hdigits => exact digits?_append hdigits hrest

/-- What is read as a fraction is one in front. -/
theorem of_fraction? {fraction : Text} (h : fraction? t = some (fraction, rest)) :
    ∃ point, SpellsFraction fraction point ∧ t = point ++ rest := by
  unfold fraction? at h
  split at h
  · obtain ⟨hdigits, rfl⟩ := of_digits? h
    exact ⟨_, .point hdigits, rfl⟩
  · obtain ⟨rfl, rfl⟩ : [] = fraction ∧ t = rest := by simpa using h
    exact ⟨_, .absent, rfl⟩

/-- Digits have a first one. -/
theorem IsDigits.exists_cons (h : IsDigits digits) :
    ∃ d more, digits = d :: more ∧ d.isDigit = true := by
  obtain ⟨d, more, rfl⟩ := List.exists_cons_of_ne_nil h.1
  exact ⟨d, more, rfl, h.2 d List.mem_cons_self⟩

/-- The sign of an exponent is read before its digits. -/
theorem exponentSign_append {negative : Bool} {sign : Text} (h : SpellsSign negative sign)
    (hdigits : IsDigits digits) (rest : Text) :
    exponentSign (sign ++ (digits ++ rest)) = (negative, digits ++ rest) := by
  cases h with
  | absent =>
    obtain ⟨d, more, rfl, hd⟩ := hdigits.exists_cons
    have hminus : d ≠ '-' := by rintro rfl; cases hd
    have hplus : d ≠ '+' := by rintro rfl; cases hd
    simp [exponentSign, hminus, hplus]
  | plus => rfl
  | minus => rfl

/-- The sign that is read stands in front. -/
theorem exists_exponentSign (t : Text) :
    ∃ sign, SpellsSign (exponentSign t).1 sign ∧ t = sign ++ (exponentSign t).2 := by
  unfold exponentSign
  split
  · exact ⟨_, .minus, rfl⟩
  · exact ⟨_, .plus, rfl⟩
  · exact ⟨_, .absent, rfl⟩

/-- An exponent is read up to the first character that is no digit. -/
theorem exponent?_append {exponent : Option (Bool × Text)} {power : Text}
    (h : SpellsExponent exponent power) (hmark : Avoids (fun c => c = 'e' ∨ c = 'E') rest)
    (hrest : Avoids Char.isDigit rest) :
    exponent? (power ++ rest) = some (exponent, rest) := by
  cases h with
  | absent =>
    rw [List.nil_append]
    cases rest with
    | nil => rfl
    | cons c rest => rw [exponent?, if_neg (by simpa using hmark c rfl)]
  | marked hmark hsign hdigits =>
    rw [List.cons_append, List.append_assoc, exponent?, if_pos hmark,
      exponentSign_append hsign hdigits]
    simp [digits?_append hdigits hrest]

/-- What is read as an exponent is one in front. -/
theorem of_exponent? {exponent : Option (Bool × Text)} (h : exponent? t = some (exponent, rest)) :
    ∃ power, SpellsExponent exponent power ∧ t = power ++ rest := by
  cases t with
  | nil =>
    obtain ⟨rfl, rfl⟩ : none = exponent ∧ [] = rest := by simpa [exponent?] using h
    exact ⟨[], .absent, rfl⟩
  | cons c t =>
    rw [exponent?] at h
    split at h
    · next hmark =>
      obtain ⟨sign, hsign, ht⟩ := exists_exponentSign t
      generalize exponentSign t = signed at h hsign ht
      obtain ⟨negative, behind⟩ := signed
      obtain ⟨⟨digits, after⟩, hread, heq⟩ := Option.map_eq_some_iff.mp h
      obtain ⟨rfl, rfl⟩ := Prod.mk.inj heq
      obtain ⟨hdigits, rfl⟩ := of_digits? hread
      refine ⟨_, .marked hmark hsign hdigits, ?_⟩
      rw [ht, List.cons_append, List.append_assoc]
    · obtain ⟨rfl, rfl⟩ : none = exponent ∧ c :: t = rest := by simpa using h
      exact ⟨[], .absent, rfl⟩

/-- A numeral behind its sign. -/
def unsigned? (negative : Bool) (t : Text) : Option (Numeral × Text) := do
  let (whole, t) ← whole? t
  let (fraction, t) ← fraction? t
  let (exponent, t) ← exponent? t
  some (⟨negative, whole, fraction, exponent⟩, t)

/-- A number without a minus sign is read as it is. -/
theorem numeral?_of_ne (h : t.head? ≠ some '-') : numeral? t = unsigned? false t := by
  cases t with
  | nil => rfl
  | cons c t =>
    have hc : c ≠ '-' := by simpa using h
    simp [numeral?, unsigned?, hc]

/-- Texts that do not start with a character of a class do not do so one after the other. -/
theorem Avoids.append (ht : Avoids p t) (hu : Avoids p u) : Avoids p (t ++ u) := by
  cases t with
  | nil => exact hu
  | cons c t => exact ht

/-- A fraction does not start with a character of a class without the point. -/
theorem SpellsFraction.avoids {fraction point : Text} (h : SpellsFraction fraction point)
    (hp : p '.' = false) : Avoids p point := by
  cases h with
  | absent => intro c hc; cases hc
  | point hdigits => rintro c ⟨⟩; exact hp

/-- An exponent does not start with a character of a class without its marks. -/
theorem SpellsExponent.avoids {exponent : Option (Bool × Text)} {power : Text}
    (h : SpellsExponent exponent power) (hlower : p 'e' = false) (hupper : p 'E' = false) :
    Avoids p power := by
  cases h with
  | absent => intro c hc; cases hc
  | marked hmark hsign hdigits =>
    rintro c ⟨⟩
    rcases hmark with rfl | rfl
    · exact hlower
    · exact hupper

/-- What stands behind a value does not go on with a numeral. -/
theorem FollowsValue.avoids (h : FollowsValue rest)
    (hp : ([' ', '\n', '\r', '\t', ',', ']', '\x7d'].all fun c => !p c) = true) :
    Avoids p rest := by
  intro c hc
  have hmem : c ∈ [' ', '\n', '\r', '\t', ',', ']', '\x7d'] := by
    have hcases := h c hc
    simp only [isGap, endsElement, Bool.or_eq_true, decide_eq_true_eq] at hcases
    simp only [List.mem_cons, List.not_mem_nil, or_false]
    tauto
  simpa using List.all_eq_true.mp hp c hmem

/-- A number without its sign is read off what can follow a value. -/
theorem unsigned?_append (negative : Bool) {whole fraction point power : Text}
    {exponent : Option (Bool × Text)} (hwhole : IsWholePart whole)
    (hfraction : SpellsFraction fraction point) (hexponent : SpellsExponent exponent power)
    (hrest : FollowsValue rest) :
    unsigned? negative (whole ++ (point ++ (power ++ rest))) =
      some (⟨negative, whole, fraction, exponent⟩, rest) := by
  have hdigit : Avoids Char.isDigit rest := hrest.avoids (by decide)
  have hpower : Avoids Char.isDigit (power ++ rest) :=
    (hexponent.avoids (by decide) (by decide)).append hdigit
  have hpoint : Avoids (· = '.') (power ++ rest) :=
    (hexponent.avoids (by decide) (by decide)).append (hrest.avoids (by decide))
  have hmark : Avoids (fun c => c = 'e' ∨ c = 'E') rest := hrest.avoids (by decide)
  unfold unsigned?
  rw [whole?_append hwhole ((hfraction.avoids (by decide)).append hpower), Option.bind_eq_bind,
    Option.bind_some]
  simp only
  rw [fraction?_append hfraction hpoint hpower, Option.bind_eq_bind, Option.bind_some]
  simp only
  rw [exponent?_append hexponent hmark hdigit]
  rfl

/-- What is read as a number without its sign is one in front. -/
theorem of_unsigned? {negative : Bool} {n : Numeral} (h : unsigned? negative t = some (n, rest)) :
    ∃ u, SpellsNumeral n (minus negative ++ u) ∧ t = u ++ rest := by
  unfold unsigned? at h
  obtain ⟨⟨whole, t₁⟩, h₁, h⟩ := Option.bind_eq_some_iff.mp h
  obtain ⟨⟨fraction, t₂⟩, h₂, h⟩ := Option.bind_eq_some_iff.mp h
  obtain ⟨⟨exponent, t₃⟩, h₃, h⟩ := Option.bind_eq_some_iff.mp h
  obtain ⟨rfl, rfl⟩ := Prod.mk.inj (Option.some.inj h)
  obtain ⟨hwhole, rfl⟩ := of_whole? h₁
  obtain ⟨point, hpoint, rfl⟩ := of_fraction? h₂
  obtain ⟨power, hpower, rfl⟩ := of_exponent? h₃
  exact ⟨_, .parts hwhole hpoint hpower, by simp only [List.append_assoc]⟩

/-- A whole part has a first digit. -/
theorem IsWholePart.exists_cons {whole : Text} (h : IsWholePart whole) :
    ∃ d more, whole = d :: more ∧ d.isDigit = true := by
  rcases h with rfl | ⟨hdigits, -⟩
  · exact ⟨'0', [], rfl, rfl⟩
  · exact hdigits.exists_cons

/-- A number is read off what can follow a value. -/
theorem numeral?_append {n : Numeral} (h : SpellsNumeral n t) (hrest : FollowsValue rest) :
    numeral? (t ++ rest) = some (n, rest) := by
  obtain @⟨negative, whole, fraction, point, power, exponent, hwhole, hpoint, hpower⟩ := h
  have hunsigned := unsigned?_append negative hwhole hpoint hpower hrest
  simp only [List.append_assoc]
  cases negative with
  | true => exact hunsigned
  | false =>
    obtain ⟨d, more, rfl, hd⟩ := hwhole.exists_cons
    refine (numeral?_of_ne ?_).trans hunsigned
    rintro ⟨⟩
    cases hd

/-- What is read as a number is one in front. -/
theorem of_numeral? {n : Numeral} (h : numeral? t = some (n, rest)) :
    ∃ u, SpellsNumeral n u ∧ t = u ++ rest := by
  by_cases hminus : t.head? = some '-'
  · cases t with
    | nil => simp at hminus
    | cons c t =>
      obtain rfl : c = '-' := by simpa using hminus
      obtain ⟨u, hu, rfl⟩ := of_unsigned? h
      exact ⟨_, hu, rfl⟩
  · rw [numeral?_of_ne hminus] at h
    obtain ⟨u, hu, rfl⟩ := of_unsigned? h
    exact ⟨_, hu, rfl⟩

/-- Whether a character can be the first one of a numeral. -/
def startsNumeral (c : Char) : Bool := c = '-' || c.isDigit

/-- What cannot begin a number is not its first character. -/
theorem ne_of_startsNumeral {d : Char} (hc : startsNumeral c = true)
    (hd : startsNumeral d = false) : d ≠ c := by
  rintro rfl
  rw [hd] at hc
  cases hc

/-- A number does not begin with spacing. -/
theorem isGap_eq_false_of_startsNumeral (hc : startsNumeral c = true) : isGap c = false := by
  simp [isGap, (ne_of_startsNumeral hc (d := ' ') rfl).symm,
    (ne_of_startsNumeral hc (d := '\n') rfl).symm, (ne_of_startsNumeral hc (d := '\r') rfl).symm,
    (ne_of_startsNumeral hc (d := '\t') rfl).symm]

/-- A number begins with a digit or a minus sign. -/
theorem SpellsNumeral.exists_cons {n : Numeral} (h : SpellsNumeral n t) :
    ∃ c more, t = c :: more ∧ startsNumeral c = true := by
  obtain @⟨negative, whole, fraction, point, power, exponent, hwhole, hpoint, hpower⟩ := h
  cases negative with
  | true => exact ⟨_, _, rfl, rfl⟩
  | false =>
    obtain ⟨d, more, rfl, hd⟩ := hwhole.exists_cons
    exact ⟨_, _, rfl, by simp [startsNumeral, hd]⟩

/-! ## Strings -/

/-- The elements of a string are read up to its closing quote. -/
theorem elements?_append {elements : List Element} (h : SpellsElements elements t) (rest : Text) :
    elements? (t ++ '"' :: rest) = some (elements, rest) := by
  induction h with
  | nil => rfl
  | plain hquote hslash hcontrol h ih => simp [elements?, hslash, ih, hcontrol]
  | @escape e c elements t he h ih =>
    have hu : e ≠ 'u' := by
      rintro rfl
      cases he
    simp [elements?, hu, he, ih]
  | code hn h ih => simp [elements?, hn, ih]

/-- What is read as elements are elements before a quote. -/
theorem of_elements? {elements : List Element} (h : elements? t = some (elements, rest)) :
    ∃ u, SpellsElements elements u ∧ t = u ++ '"' :: rest := by
  fun_induction elements? t generalizing elements with
  | case1 => cases h
  | case2 t =>
    obtain ⟨rfl, rfl⟩ := Prod.mk.inj (Option.some.inj h)
    exact ⟨[], .nil, rfl⟩
  | case3 a b c d t ih =>
    obtain ⟨n, hn, h⟩ := Option.bind_eq_some_iff.mp h
    obtain ⟨⟨more, after⟩, hmore, h⟩ := Option.bind_eq_some_iff.mp h
    obtain ⟨rfl, rfl⟩ := Prod.mk.inj (Option.some.inj h)
    obtain ⟨u, hu, rfl⟩ := ih hmore
    exact ⟨_, .code hn hu, rfl⟩
  | case4 e t _ ih =>
    obtain ⟨c, hc, h⟩ := Option.bind_eq_some_iff.mp h
    obtain ⟨⟨more, after⟩, hmore, h⟩ := Option.bind_eq_some_iff.mp h
    obtain ⟨rfl, rfl⟩ := Prod.mk.inj (Option.some.inj h)
    obtain ⟨u, hu, rfl⟩ := ih hmore
    exact ⟨_, .escape hc hu, rfl⟩
  | case5 => cases h
  | case6 c t hquote _ _ hplain ih =>
    obtain ⟨hslash, hcontrol⟩ := not_or.mp hplain
    obtain ⟨⟨more, after⟩, hmore, h⟩ := Option.bind_eq_some_iff.mp h
    obtain ⟨rfl, rfl⟩ := Prod.mk.inj (Option.some.inj h)
    obtain ⟨u, hu, rfl⟩ := ih hmore
    exact ⟨_, .plain hquote hslash (Nat.le_of_not_lt hcontrol) hu, rfl⟩

/-- A string is read off whatever follows it, behind its opening quote. -/
theorem string?_append {s : JsonString} (h : SpellsString s t) (rest : Text) :
    ∃ u, t ++ rest = '"' :: u ∧ string? u = some (s, rest) := by
  obtain @⟨elements, inner, h⟩ := h
  refine ⟨inner ++ '"' :: rest, by simp, ?_⟩
  rw [string?, elements?_append h]
  rfl

/-- What is read as a string is one in front. -/
theorem of_string? {s : JsonString} (h : string? t = some (s, rest)) :
    ∃ u, SpellsString s u ∧ '"' :: t = u ++ rest := by
  obtain ⟨⟨elements, after⟩, helements, heq⟩ := Option.map_eq_some_iff.mp h
  obtain ⟨rfl, rfl⟩ := Prod.mk.inj heq
  obtain ⟨u, hu, rfl⟩ := of_elements? helements
  exact ⟨_, .quoted hu, by simp⟩

/-- Spacing before a key is passed over. -/
theorem key?_skipGap (t : Text) : key? (skipGap t) = key? t := by
  unfold key?
  rw [skipGap_skipGap]

/-- A key is read with its colon, whatever spacing is around it. -/
theorem key?_append {k : JsonString} {before key after : Text} (hbefore : IsSpacing before)
    (hkey : SpellsString k key) (hafter : IsSpacing after) (t : Text) :
    key? (before ++ (key ++ (after ++ ':' :: t))) = some (k, t) := by
  obtain ⟨u, hu, hstring⟩ := string?_append hkey (after ++ ':' :: t)
  have hcolon : skipGap (after ++ ':' :: t) = ':' :: t := by
    rw [skipGap_append hafter, skipGap_cons_of_neg rfl]
  unfold key?
  rw [skipGap_append hbefore, hu, skipGap_cons_of_neg rfl]
  simp only [hstring, Option.bind_eq_bind, Option.bind_some, hcolon]

/-- What is read as a key is one in front, with its spacing and a colon. -/
theorem of_key? {k : JsonString} (h : key? t = some (k, rest)) :
    ∃ before key after, IsSpacing before ∧ SpellsString k key ∧ IsSpacing after ∧
      t = before ++ (key ++ (after ++ ':' :: rest)) := by
  obtain ⟨before, hbefore, ht⟩ := exists_skipGap t
  unfold key? at h
  split at h
  · next u hu =>
    obtain ⟨⟨key, behind⟩, hkey, h⟩ := Option.bind_eq_some_iff.mp h
    obtain ⟨word, hword, hsplit⟩ := of_string? hkey
    obtain ⟨after, hafter, hbehind⟩ := exists_skipGap behind
    simp only at h
    split at h
    · next colon hcolon =>
      obtain ⟨rfl, rfl⟩ := Prod.mk.inj (Option.some.inj h)
      refine ⟨before, word, after, hbefore, hword, hafter, ?_⟩
      rw [ht, hu, hsplit, hbehind, hcolon]
    · cases h
  · cases h

end Concordance.JsonValue
