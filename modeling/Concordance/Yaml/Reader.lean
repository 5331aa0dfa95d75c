import Concordance.Yaml.Scalar

set_option autoImplicit false

/-!
# Reading YAML

The part of YAML that settings are written in: block mappings and sequences, nested by indentation,
flow mappings and sequences in brackets, and scalars. Anchors, tags, block scalars and directives
are not read. Each reader gets the text from a token on and leaves it at the next token; nested
values are read with a bound on the number of steps that the length of the text never lets it
reach.
-/

namespace Concordance.Yaml

/-- What follows the colon of a key whose scalar has just been read. The colon must be on the line
on which the scalar started and, outside of flow collections, be followed by a gap. -/
def afterColon? (flow : Bool) (line : Nat) (t : List Glyph) : Option (List Glyph) :=
  match t.dropWhile fun g => isSpace g.char with
  | g :: rest =>
    if g.char = ':' ∧ g.line = line ∧ (flow || atGap rest) then some rest else none
  | [] => none

/-- Whether the first token is the dash of a sequence. -/
def atDash : List Glyph → Bool
  | [] => false
  | g :: rest => g.char = '-' && atGap rest

/-- Passes over a gap between tokens of flow collections. -/
def skipFlowGap (t : List Glyph) : List Glyph := skipGap true true false t

/-! ### Flow collections -/

/-- Whether a flow collection has no value at this token. -/
def atFlowEnd : List Glyph → Bool
  | [] => false
  | g :: _ => g.char = ',' || g.char = ']' || g.char = '\x7d'

mutual

/-- A value in a flow collection. -/
def flowValue? (indent : Nat) : (steps : Nat) → List Glyph → Option (YamlValue × List Glyph)
  | 0, _ => none
  | _, [] => none
  | steps + 1, g :: rest =>
    if g.char = '[' then
      (flowItems? indent steps (skipFlowGap rest)).map fun (items, t) => (.sequence items, t)
    else if g.char = '\x7b' then
      (flowEntries? indent steps (skipFlowGap rest)).map fun (entries, t) => (.mapping entries, t)
    else scalar? true indent (g :: rest)

/-- A value with what a colon after it adds: the value of the key that it then is. -/
def flowEntry? (indent : Nat) :
    (steps : Nat) → List Glyph → Option (YamlValue × Option YamlValue × List Glyph)
  | 0, _ => none
  | _, [] => none
  | steps + 1, g :: rest => do
    let (key, t) ← flowValue? indent steps (g :: rest)
    match afterColon? true g.line t with
    | none => some (key, none, skipFlowGap t)
    | some t =>
      let t := skipFlowGap t
      if atFlowEnd t then some (key, some .nothing, t)
      else do
        let (value, t) ← flowValue? indent steps t
        some (key, some value, skipFlowGap t)

/-- The items of a flow sequence up to its closing bracket. -/
def flowItems? (indent : Nat) : (steps : Nat) → List Glyph → Option (List YamlValue × List Glyph)
  | 0, _ => none
  | _, [] => none
  | steps + 1, g :: rest =>
    if g.char = ']' then some ([], rest)
    else do
      let (key, value, t) ← flowEntry? indent steps (g :: rest)
      let item := match value with
        | some value => YamlValue.mapping [(key, value)]
        | none => key
      match t with
      | h :: t =>
        if h.char = ',' then do
          let (items, t) ← flowItems? indent steps (skipFlowGap t)
          some (item :: items, t)
        else if h.char = ']' then some ([item], t)
        else none
      | [] => none

/-- The entries of a flow mapping up to its closing brace. -/
def flowEntries? (indent : Nat) :
    (steps : Nat) → List Glyph → Option (List (YamlValue × YamlValue) × List Glyph)
  | 0, _ => none
  | _, [] => none
  | steps + 1, g :: rest =>
    if g.char = '\x7d' then some ([], rest)
    else do
      let (key, value, t) ← flowEntry? indent steps (g :: rest)
      let entry := (key, value.getD .nothing)
      match t with
      | h :: t =>
        if h.char = ',' then do
          let (entries, t) ← flowEntries? indent steps (skipFlowGap t)
          some (entry :: entries, t)
        else if h.char = '\x7d' then some ([entry], t)
        else none
      | [] => none

end

/-! ### Blocks -/

/-- Passes over the gap after a value in a block. -/
def skipBlockGap (t : List Glyph) : List Glyph := skipGap false true false t

/-- A scalar that is a key at this token, with what follows its colon. -/
def key? (indent : Nat) : List Glyph → Option (YamlValue × List Glyph)
  | [] => none
  | g :: rest => do
    let (key, t) ← scalar? false indent (g :: rest)
    let t ← afterColon? false g.line t
    some (key, t)

mutual

/-- A value in a block whose contents are indented by at least `indent`. Only where `fresh` holds,
at the beginning of a line or after a dash, may a block collection begin. -/
def blockValue? (indent : Nat) (fresh : Bool) :
    (steps : Nat) → List Glyph → Option (YamlValue × List Glyph)
  | 0, _ => none
  | _, [] => none
  | steps + 1, g :: rest =>
    if fresh && atDash (g :: rest) then
      (blockItems? g.column steps (g :: rest)).map fun (items, t) => (.sequence items, t)
    else if g.char = '[' ∨ g.char = '\x7b' then
      (flowValue? indent steps (g :: rest)).map fun (value, t) => (value, skipBlockGap t)
    else match key? indent (g :: rest) with
      | some (key, t) =>
        if fresh then
          (blockEntries? g.column key g.line steps t).map fun (entries, t) => (.mapping entries, t)
        else none
      | none =>
        (scalar? false indent (g :: rest)).map fun (value, t) => (value, skipBlockGap t)
termination_by structural steps _ => steps

/-- The items of a block sequence whose dashes are at a column. -/
def blockItems? (column : Nat) : (steps : Nat) → List Glyph → Option (List YamlValue × List Glyph)
  | 0, _ => none
  | _, [] => none
  | steps + 1, dash :: rest => do
    let t := skipGap false false false rest
    let (item, t) ←
      match t with
      | g :: _ =>
        if g.line = dash.line ∨ column < g.column then blockValue? (column + 1) true steps t
        else some (.nothing, t)
      | [] => some (.nothing, [])
    match t with
    | g :: _ =>
      if g.column = column ∧ atDash t then do
        let (items, t) ← blockItems? column steps t
        some (item :: items, t)
      else some ([item], t)
    | [] => some ([item], [])
termination_by structural steps _ => steps

/-- The entries of a block mapping whose keys are at a column, from what follows the colon of the
first one on. -/
def blockEntries? (column : Nat) (key : YamlValue) (line : Nat) :
    (steps : Nat) → List Glyph → Option (List (YamlValue × YamlValue) × List Glyph)
  | 0, _ => none
  | steps + 1, t => do
    let t := skipBlockGap t
    let (value, t) ←
      match t with
      | g :: _ =>
        if g.line = line then blockValue? (column + 1) false steps t
        else if column < g.column then blockValue? (column + 1) true steps t
        else if g.column = column ∧ atDash t then
          (blockItems? column steps t).map fun (items, t) => (.sequence items, t)
        else some (.nothing, t)
      | [] => some (.nothing, [])
    match t with
    | g :: _ =>
      if column < g.column then none
      else if g.column = column then do
        let (next, t) ← key? (column + 1) t
        let (entries, t) ← blockEntries? column next g.line steps t
        some ((key, value) :: entries, t)
      else some ([(key, value)], t)
    | [] => some ([(key, value)], [])
termination_by structural steps _ => steps

end

/-- What a document holds; nothing at all if it is blank. A mark may stand before it. -/
def read? (text : Text) : Option (Option YamlValue) :=
  if !text.all isPrintable then none
  else
    let t := skipGap false false false (glyphs text)
    let marked := ((t.take 3).map Glyph.char = "---") && atGap (t.drop 3)
    let body := if marked then skipBlockGap (t.drop 3) else t
    match body with
    | [] => some none
    | g :: _ =>
      let fresh := !marked || (t.head?.any fun mark => mark.line < g.line)
      match blockValue? 0 fresh (4 * body.length + 4) body with
      | some (value, []) => some (some value)
      | _ => none

end Concordance.Yaml
