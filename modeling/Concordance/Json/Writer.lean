import Concordance.Json.Value

set_option autoImplicit false

/-!
# Writing JSON

Values are written over several lines, two spaces deeper for each level. An empty array or object
takes no lines of its own. Only quotes, backslashes and control characters are escaped.
-/

namespace Concordance.JsonValue

open Text

/-- A hexadecimal digit. -/
def hexDigit (n : Nat) : Char := Nat.digitChar n

/-- A character inside a string literal. -/
def escapeChar (c : Char) : Text :=
  if c = '"' then ['\\', '"']
  else if c = '\\' then ['\\', '\\']
  else if c = '\n' then ['\\', 'n']
  else if c = '\r' then ['\\', 'r']
  else if c = '\t' then ['\\', 't']
  else if c = '\x08' then ['\\', 'b']
  else if c = '\x0c' then ['\\', 'f']
  else if c.toNat < 0x20 then
    ['\\', 'u', '0', '0', hexDigit (c.toNat / 16), hexDigit (c.toNat % 16)]
  else [c]

/-- The string literal of a text. -/
def quote (t : Text) : Text := '"' :: t.flatMap escapeChar ++ ['"']

/-- The literal of a string; one that denotes no text is written as a lone surrogate. -/
def writeString : JsonString → Text
  | some t => quote t
  | none => "\"\\ud800\""

/-- A numeral. -/
def writeNumeral (n : Numeral) : Text :=
  (if n.negative then ['-'] else []) ++ n.whole ++
    (if n.fraction.isEmpty then [] else '.' :: n.fraction) ++
    match n.exponent with
    | none => []
    | some (negative, digits) => 'e' :: (if negative then ['-'] else []) ++ digits

/-- A new line at a depth. -/
def newLine (depth : Nat) : Text := '\n' :: List.replicate (2 * depth) ' '

mutual

/-- The text of a value at a depth. -/
def writeAt (depth : Nat) : JsonValue → Text
  | .null => "null"
  | .bool true => "true"
  | .bool false => "false"
  | .number n => writeNumeral n
  | .string s => writeString s
  | .array [] => "[]"
  | .array (v :: rest) =>
    '[' :: newLine (depth + 1) ++ writeAt (depth + 1) v ++ writeItems (depth + 1) rest ++
      newLine depth ++ [']']
  | .object [] => "\x7b\x7d"
  | .object ((k, v) :: rest) =>
    '\x7b' :: newLine (depth + 1) ++ writeString k ++ ": " ++ writeAt (depth + 1) v ++
      writeMembers (depth + 1) rest ++ newLine depth ++ ['\x7d']

/-- The items of an array after the first one. -/
def writeItems (depth : Nat) : List JsonValue → Text
  | [] => []
  | v :: rest => ',' :: newLine depth ++ writeAt depth v ++ writeItems depth rest

/-- The members of an object after the first one. -/
def writeMembers (depth : Nat) : List (JsonString × JsonValue) → Text
  | [] => []
  | (k, v) :: rest =>
    ',' :: newLine depth ++ writeString k ++ ": " ++ writeAt depth v ++ writeMembers depth rest

end

/-- The text of a value. -/
def write (v : JsonValue) : Text := writeAt 0 v

end Concordance.JsonValue
