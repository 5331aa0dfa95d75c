import Concordance.Text.Basic

set_option autoImplicit false

/-!
# JSON values

A JSON value as its text gives it: members keep their order and may repeat, and a numeral keeps its
digits. A string literal may hold an escape for one half of a surrogate pair without the other; it
is well formed but denotes no text.
-/

namespace Concordance

/-- A numeral of JSON by its parts. -/
structure Numeral where
  negative : Bool
  whole : Text
  /-- The digits after the point, none if there is no point. -/
  fraction : Text
  /-- The sign and the digits of the exponent. -/
  exponent : Option (Bool × Text)
deriving DecidableEq, Inhabited

/-- The numeral of a natural number. -/
def Numeral.ofNat (n : Nat) : Numeral :=
  { negative := false, whole := Text.ofNat n, fraction := [], exponent := none }

/-- What a string literal denotes; nothing if a surrogate in it has no partner. -/
abbrev JsonString := Option Text

/-- A JSON value. -/
inductive JsonValue where
  | null
  | bool (b : Bool)
  | number (n : Numeral)
  | string (s : JsonString)
  | array (items : List JsonValue)
  | object (members : List (JsonString × JsonValue))
deriving Inhabited

namespace JsonValue

/-- The value of a text. -/
def text (t : Text) : JsonValue := .string (some t)

/-- The value of a natural number. -/
def nat (n : Nat) : JsonValue := .number (.ofNat n)

/-- The value of a list of texts. -/
def texts (l : List Text) : JsonValue := .array (l.map text)

/-- The object with the given members. -/
def record (members : List (Text × JsonValue)) : JsonValue :=
  .object (members.map fun m => (some m.1, m.2))

/-- A member that is left out if it has no value. -/
def optional (key : Text) (value : Option JsonValue) : List (Text × JsonValue) :=
  (value.map fun v => (key, v)).toList

end JsonValue

end Concordance
