import Concordance.Yaml.Glyph

set_option autoImplicit false

/-!
# YAML values and their scalars

A scalar keeps its text and whether it was written plainly, since only a plain scalar can be
nothing, a truth value or a number. It may go over several lines, whose ends are folded. A plain one
outside of flow collections goes on only on lines indented deeper than what it belongs to. Each
reader is bounded by the number of characters before it.
-/

namespace Concordance

/-- A value of a YAML document. -/
inductive YamlValue where
  | scalar (plain : Bool) (text : Text)
  | sequence (items : List YamlValue)
  | mapping (entries : List (YamlValue × YamlValue))
deriving Inhabited

namespace YamlValue

/-- What stands where nothing is written. -/
def nothing : YamlValue := .scalar true []

end YamlValue

namespace Yaml

/-- The brackets and the comma of flow collections. -/
def isFlowMark (c : Char) : Bool :=
  c = ',' || c = '[' || c = ']' || c = '\x7b' || c = '\x7d'

/-- Whether a flow mark or a question mark comes first. -/
def atFlowMark : List Glyph → Bool
  | [] => false
  | g :: _ => isFlowMark g.char || g.char = '?'

/-- The characters that a plain scalar does not start with. -/
def isIndicator (c : Char) : Bool :=
  isFlowMark c || c = '-' || c = '?' || c = ':' || c = '#' || c = '&' || c = '*' || c = '!' ||
    c = '|' || c = '>' || c = '\x27' || c = '"' || c = '%' || c = '@' || c = '\x60'

/-- Whether a plain scalar starts here. A dash, and outside of flow collections a question mark or
a colon, may start one if it is directly followed by something. -/
def startsPlain (flow : Bool) : List Glyph → Bool
  | [] => false
  | g :: rest =>
    if isSpace g.char || isBreak g.char then false
    else if isIndicator g.char then
      !atGap rest && (g.char = '-' || (!flow && (g.char = '?' || g.char = ':')))
    else true

/-- The part of a plain scalar up to a gap or to what ends it. -/
def plainRun (flow : Bool) : List Glyph → Option (Text × List Glyph)
  | [] => some ([], [])
  | g :: rest =>
    if flow && g.char = ':' && atFlowMark rest then none
    else if isSpace g.char || isBreak g.char || (g.char = ':' && atGap rest) ||
        (flow && isFlowMark g.char) then
      some ([], g :: rest)
    else (plainRun flow rest).map fun (run, rest) => (g.char :: run, rest)

/-- Whether a gap has a tab where there should be indentation. -/
def hasTabIndent (indent : Nat) (gap : List Glyph) : Bool :=
  (gap.dropWhile fun g => !isBreak g.char).any fun g => g.char = '\t' && g.column < indent

/-- Whether a plain scalar ends before what follows a gap. -/
def endsPlain (flow : Bool) (indent : Nat) : List Glyph → Bool
  | [] => true
  | g :: _ => g.char = '#' || (!flow && g.column < indent)

/-- A plain scalar. -/
def plain? (flow : Bool) (indent : Nat) : (steps : Nat) → List Glyph → Option (Text × List Glyph)
  | 0, _ => none
  | steps + 1, t => do
    let (run, t) ← plainRun flow t
    let gap := gapOf t
    if gap.isEmpty then some (run, t)
    else if hasTabIndent indent gap then none
    else if endsPlain flow indent (afterGap t) then some (run, afterGap t)
    else do
      let (more, rest) ← plain? flow indent steps (afterGap t)
      some (if more.isEmpty then run else run ++ joiner gap ++ more, rest)

/-- The value of digits in base sixteen. -/
def hexNumber? (digits : Text) : Option Nat :=
  digits.foldl
    (fun n? c => n?.bind fun n =>
      if '0' ≤ c ∧ c ≤ '9' then some (n * 16 + (c.toNat - '0'.toNat))
      else if 'a' ≤ c ∧ c ≤ 'f' then some (n * 16 + (c.toNat - 'a'.toNat + 10))
      else if 'A' ≤ c ∧ c ≤ 'F' then some (n * 16 + (c.toNat - 'A'.toNat + 10))
      else none)
    (some 0)

/-- The character with a number, if there is one. -/
def charAt? (n : Nat) : Option Char := if n.isValidChar then some (Char.ofNat n) else none

/-- The character that a short escape denotes. -/
def shortEscape? (c : Char) : Option Char :=
  [('0', 0x0), ('a', 0x7), ('b', 0x8), ('t', 0x9), ('\t', 0x9), ('n', 0xA), ('v', 0xB),
    ('f', 0xC), ('r', 0xD), ('e', 0x1B), (' ', 0x20), ('"', 0x22), ('/', 0x2F), ('\\', 0x5C),
    ('N', 0x85), ('_', 0xA0), ('L', 0x2028), ('P', 0x2029)].lookup c |>.map Char.ofNat

/-- The number of digits of a numeric escape. -/
def escapeWidth? (c : Char) : Option Nat := [('x', 2), ('u', 4), ('U', 8)].lookup c

/-- What an escape after its backslash denotes. -/
def escape? : List Glyph → Option (Text × List Glyph)
  | [] => none
  | g :: rest =>
    if isBreak g.char then
      some ((((gapOf rest).map Glyph.char).filter isBreak), afterGap rest)
    else match escapeWidth? g.char with
      | some width => do
        let digits := (rest.take width).map Glyph.char
        if digits.length < width then none
        else do
          let c ← (hexNumber? digits).bind charAt?
          some ([c], rest.drop width)
      | none => (shortEscape? g.char).map fun c => ([c], rest)

/-- A quoted scalar after its opening quote. -/
def quoted? (quote : Char) : (steps : Nat) → List Glyph → Option (Text × List Glyph)
  | 0, _ => none
  | _, [] => none
  | steps + 1, g :: rest =>
    if g.char = quote then
      match rest with
      | h :: rest' =>
        if quote = '\x27' ∧ h.char = '\x27' then
          (quoted? quote steps rest').map fun (t, rest) => (quote :: t, rest)
        else some ([], h :: rest')
      | [] => some ([], [])
    else if quote = '"' ∧ g.char = '\\' then do
      let (t, rest) ← escape? rest
      let (more, rest) ← quoted? quote steps rest
      some (t ++ more, rest)
    else if isSpace g.char || isBreak g.char then
      (quoted? quote steps (afterGap rest)).map fun (t, rest') =>
        (joiner (g :: gapOf rest) ++ t, rest')
    else (quoted? quote steps rest).map fun (t, rest) => (g.char :: t, rest)

/-- A scalar that starts here. -/
def scalar? (flow : Bool) (indent : Nat) (t : List Glyph) : Option (YamlValue × List Glyph) :=
  match t with
  | [] => none
  | g :: rest =>
    if g.char = '"' ∨ g.char = '\x27' then
      (quoted? g.char (t.length + 1) rest).map fun (text, rest) => (.scalar false text, rest)
    else if startsPlain flow t then
      (plain? flow indent (t.length + 1) t).map fun (text, rest) => (.scalar true text, rest)
    else none

end Yaml

end Concordance
