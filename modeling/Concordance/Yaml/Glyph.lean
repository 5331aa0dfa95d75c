import Concordance.Text.Basic

set_option autoImplicit false

/-!
# Characters with their places

Where a token of YAML stands matters as much as what it is: indentation nests blocks, and a key
shares its line with its colon. So the text is read as a list of characters with their places.
-/

namespace Concordance.Yaml

/-- A character with its line and column, both counted from zero. -/
structure Glyph where
  char : Char
  line : Nat
  column : Nat
deriving DecidableEq

/-- The characters that end a line. -/
def isBreak (c : Char) : Bool := c = '\n' || c = '\u2028' || c = '\u2029'

/-- The characters that separate tokens on a line. -/
def isSpace (c : Char) : Bool := c = ' ' || c = '\t'

/-- Whether a character may stand in a document. -/
def isPrintable (c : Char) : Bool :=
  let n := c.toNat
  n == 0x9 || n == 0xA || n == 0xD || (0x20 ≤ n && n ≤ 0x7E) || n == 0x85 ||
    (0xA0 ≤ n && n ≤ 0xD7FF) || (0xE000 ≤ n && n ≤ 0xFFFD) || 0x10000 ≤ n

/-- Writes every common line end as a line feed. -/
def unifyBreaks : Text → Text
  | [] => []
  | '\r' :: '\n' :: t => '\n' :: unifyBreaks t
  | c :: t => (if c = '\r' ∨ c = '\u0085' then '\n' else c) :: unifyBreaks t

/-- The characters of a text with their places, from a place on. -/
def glyphsFrom : (line column : Nat) → Text → List Glyph
  | _, _, [] => []
  | line, column, c :: t =>
    ⟨c, line, column⟩ ::
      if isBreak c then glyphsFrom (line + 1) 0 t else glyphsFrom line (column + 1) t

/-- The characters of a text with their places. -/
def glyphs (t : Text) : List Glyph := glyphsFrom 0 0 (unifyBreaks t)

/-- Whether a space, a line end or the end of the document comes first. -/
def atGap : List Glyph → Bool
  | [] => true
  | g :: _ => isSpace g.char || isBreak g.char

/-- Passes over spaces, line ends and comments. Tabs count as spaces within a flow collection, and
elsewhere as long as the line goes on that they are on; `comment` tells that the line has become a
comment. -/
def skipGap (flow : Bool) : (tabs comment : Bool) → List Glyph → List Glyph
  | _, _, [] => []
  | tabs, comment, g :: rest =>
    if isBreak g.char then skipGap flow flow false rest
    else if comment then skipGap flow tabs true rest
    else if g.char = ' ' || (g.char = '\t' && tabs) then skipGap flow tabs false rest
    else if g.char = '#' then skipGap flow tabs true rest
    else g :: rest

/-- The spaces and line ends at the beginning. -/
def gapOf (t : List Glyph) : List Glyph := t.takeWhile fun g => isSpace g.char || isBreak g.char

/-- What follows the spaces and line ends at the beginning. -/
def afterGap (t : List Glyph) : List Glyph := t.dropWhile fun g => isSpace g.char || isBreak g.char

/-- What line ends inside a scalar stand for: a single one for a space, and of several the first
for nothing. -/
def foldBreaks : Text → Text
  | [] => []
  | c :: rest => if c = '\n' then (if rest.isEmpty then [' '] else rest) else c :: rest

/-- What a run of spaces and line ends inside a scalar stands for. -/
def joiner (gap : List Glyph) : Text :=
  let chars := gap.map Glyph.char
  if chars.any isBreak then foldBreaks (chars.filter isBreak) else chars

end Concordance.Yaml
