import Concordance.Json.Value

set_option autoImplicit false

/-!
# Reading JSON

The strict grammar: no comments, no trailing commas, no leading zeros, no raw control characters in
string literals. Each reader returns what it read and the rest of the text. Nested values are read
with a bound on the number of steps that the length of the text never lets it reach.
-/

namespace Concordance.JsonValue

open Text

/-- The blanks between tokens. -/
def isGap (c : Char) : Bool := c = ' ' || c = '\n' || c = '\r' || c = '\t'

/-- Passes over blanks. -/
def skipGap (t : Text) : Text := t.dropWhile isGap

/-! ### Strings -/

/-- The value of a hexadecimal digit. -/
def hexValue? (c : Char) : Option Nat :=
  if '0' ≤ c ∧ c ≤ '9' then some (c.toNat - '0'.toNat)
  else if 'a' ≤ c ∧ c ≤ 'f' then some (c.toNat - 'a'.toNat + 10)
  else if 'A' ≤ c ∧ c ≤ 'F' then some (c.toNat - 'A'.toNat + 10)
  else none

/-- The code unit of four hexadecimal digits. -/
def codeUnit? (a b c d : Char) : Option Nat := do
  let a ← hexValue? a
  let b ← hexValue? b
  let c ← hexValue? c
  let d ← hexValue? d
  some (((a * 16 + b) * 16 + c) * 16 + d)

/-- What stands for one element of a string literal: a character, or a code unit given by its
number. -/
inductive Element where
  | char (c : Char)
  | code (n : Nat)
deriving DecidableEq

/-- The character that a short escape denotes. -/
def shortEscape? (c : Char) : Option Char :=
  if c = '"' then some '"'
  else if c = '\\' then some '\\'
  else if c = '/' then some '/'
  else if c = 'b' then some '\x08'
  else if c = 'f' then some '\x0c'
  else if c = 'n' then some '\n'
  else if c = 'r' then some '\r'
  else if c = 't' then some '\t'
  else none

/-- The elements of a string literal up to its closing quote. -/
def elements? : Text → Option (List Element × Text)
  | [] => none
  | '"' :: t => some ([], t)
  | '\\' :: 'u' :: a :: b :: c :: d :: t => do
    let n ← codeUnit? a b c d
    let (elements, rest) ← elements? t
    some (.code n :: elements, rest)
  | '\\' :: e :: t => do
    let c ← shortEscape? e
    let (elements, rest) ← elements? t
    some (.char c :: elements, rest)
  | c :: t =>
    if c = '\\' ∨ c.toNat < 0x20 then none
    else do
      let (elements, rest) ← elements? t
      some (.char c :: elements, rest)

/-- Whether a code unit is the first half of a surrogate pair. -/
def isHighSurrogate (n : Nat) : Bool := 0xD800 ≤ n && n < 0xDC00

/-- Whether a code unit is the second half of a surrogate pair. -/
def isLowSurrogate (n : Nat) : Bool := 0xDC00 ≤ n && n < 0xE000

/-- The text of the elements of a string literal. -/
def textOf : List Element → JsonString
  | [] => some []
  | .char c :: rest => (textOf rest).map (c :: ·)
  | .code n :: rest =>
    if isHighSurrogate n then
      match rest with
      | .code m :: rest =>
        if isLowSurrogate m then
          (textOf rest).map (Char.ofNat (0x10000 + (n - 0xD800) * 0x400 + (m - 0xDC00)) :: ·)
        else none
      | _ => none
    else if isLowSurrogate n then none
    else (textOf rest).map (Char.ofNat n :: ·)

/-- A string literal after its opening quote. -/
def string? (t : Text) : Option (JsonString × Text) :=
  (elements? t).map fun (elements, rest) => (textOf elements, rest)

/-! ### Numerals -/

/-- A run of digits that is not empty. -/
def digits? (t : Text) : Option (Text × Text) :=
  let digits := t.takeWhile Char.isDigit
  if digits.isEmpty then none else some (digits, t.dropWhile Char.isDigit)

/-- The whole part of a numeral: a zero, or digits that do not start with one. -/
def whole? : Text → Option (Text × Text)
  | '0' :: t => some (['0'], t)
  | t => digits? t

/-- The fraction of a numeral, if there is a point. -/
def fraction? : Text → Option (Text × Text)
  | '.' :: t => digits? t
  | t => some ([], t)

/-- The sign of an exponent, and whether it is negative. -/
def exponentSign : Text → Bool × Text
  | '-' :: t => (true, t)
  | '+' :: t => (false, t)
  | t => (false, t)

/-- The exponent of a numeral, if there is one. -/
def exponent? : Text → Option (Option (Bool × Text) × Text)
  | [] => some (none, [])
  | c :: t =>
    if c = 'e' ∨ c = 'E' then
      let (negative, t) := exponentSign t
      (digits? t).map fun (digits, rest) => (some (negative, digits), rest)
    else some (none, c :: t)

/-- A numeral. -/
def numeral? (t : Text) : Option (Numeral × Text) := do
  let (negative, t) := match t with
    | '-' :: t => (true, t)
    | t => (false, t)
  let (whole, t) ← whole? t
  let (fraction, t) ← fraction? t
  let (exponent, t) ← exponent? t
  some (⟨negative, whole, fraction, exponent⟩, t)

/-! ### Values -/

/-- A value that is a single token. -/
def scalar? (t : Text) : Option (JsonValue × Text) :=
  match t with
  | '"' :: t => (string? t).map fun (s, rest) => (.string s, rest)
  | t =>
    ((after? "null" t).map fun rest => (.null, rest)).or
      (((after? "true" t).map fun rest => (.bool true, rest)).or
        (((after? "false" t).map fun rest => (.bool false, rest)).or
          ((numeral? t).map fun (n, rest) => (.number n, rest))))

/-- The key of a member and its colon. -/
def key? (t : Text) : Option (JsonString × Text) :=
  match skipGap t with
  | '"' :: t => do
    let (key, t) ← string? t
    match skipGap t with
    | ':' :: rest => some (key, rest)
    | _ => none
  | _ => none

mutual

/-- A value, after any blanks. -/
def value? : (steps : Nat) → Text → Option (JsonValue × Text)
  | 0, _ => none
  | steps + 1, t =>
    match skipGap t with
    | '[' :: t =>
      match skipGap t with
      | ']' :: rest => some (.array [], rest)
      | t => (items? steps t).map fun (items, rest) => (.array items, rest)
    | '\x7b' :: t =>
      match skipGap t with
      | '\x7d' :: rest => some (.object [], rest)
      | t => (members? steps t).map fun (members, rest) => (.object members, rest)
    | t => scalar? t

/-- The items of an array that is not empty, up to its closing bracket. -/
def items? : (steps : Nat) → Text → Option (List JsonValue × Text)
  | 0, _ => none
  | steps + 1, t => do
    let (item, t) ← value? steps t
    match skipGap t with
    | ']' :: rest => some ([item], rest)
    | ',' :: t =>
      let (items, rest) ← items? steps t
      some (item :: items, rest)
    | _ => none

/-- The members of an object that is not empty, up to its closing brace. -/
def members? : (steps : Nat) → Text → Option (List (JsonString × JsonValue) × Text)
  | 0, _ => none
  | steps + 1, t => do
    let (key, t) ← key? t
    let (value, t) ← value? steps t
    match skipGap t with
    | '\x7d' :: rest => some ([(key, value)], rest)
    | ',' :: t =>
      let (members, rest) ← members? steps t
      some ((key, value) :: members, rest)
    | _ => none

end

/-- The value that a text is, with nothing but blanks around it. -/
def read? (t : Text) : Option JsonValue := do
  let (value, rest) ← value? (2 * t.length + 2) t
  if (skipGap rest).isEmpty then some value else none

end Concordance.JsonValue
