import Concordance.Settings.Basic
import Concordance.Yaml.Reader

set_option autoImplicit false

/-!
# Reading settings

Settings are the YAML frontmatter of a document: a block between two lines of dashes at its
beginning. The block ends at the first line that begins with dashes; what follows them, without
leading blanks, is the body. Each setting has a default, keys that nobody knows are passed over, and
a known key must not be repeated. A settings file is looked for in the project unless one is named;
without any the defaults hold.
-/

namespace Concordance

namespace Frontmatter

open Text

/-- The dashes before and after the block. -/
def fence : Text := "---"

/-- The block of settings of a document, if it has one, and the rest of it. -/
def split (document : Text) : Option Text × Text :=
  let document := trim document
  match (after? fence document).bind (cutAtText ('\n' :: fence)) with
  | some (settings, body) => (some settings, trimStart body)
  | none => (none, document)

end Frontmatter

namespace SettingsDocument

open Text

/-- The entries of a mapping, whose keys must be scalars. A value of nothing is a mapping without
entries. -/
def entries? : YamlValue → Option (List (Text × YamlValue))
  | .mapping entries =>
    entries.mapM fun e =>
      match e.1 with
      | .scalar _ key => some (key, e.2)
      | _ => none
  | .scalar true [] => some []
  | _ => none

/-- Decodes the entry of a key, which must not be repeated. -/
def entry? {α : Type} (key : Text) (absent : α) (decode : YamlValue → Option α)
    (entries : List (Text × YamlValue)) : Option α :=
  match entries.filter fun e => e.1 = key with
  | [] => some absent
  | [e] => decode e.2
  | _ => none

/-- A text: that of any scalar. -/
def text? : YamlValue → Option Text
  | .scalar _ t => some t
  | _ => none

/-- The words for nothing. -/
def isNull (t : Text) : Bool :=
  t.isEmpty || t = "~" || t = "null" || t = "Null" || t = "NULL"

/-- A text, or nothing if that is written plainly. -/
def optionalText? : YamlValue → Option (Option Text)
  | .scalar true t => some (if isNull t then none else some t)
  | .scalar false t => some (some t)
  | _ => none

/-- A truth value, written plainly. -/
def bool? : YamlValue → Option Bool
  | .scalar true t =>
    if t = "true" ∨ t = "True" ∨ t = "TRUE" then some true
    else if t = "false" ∨ t = "False" ∨ t = "FALSE" then some false
    else none
  | _ => none

/-- The value of a digit, in either case. -/
def digitValue? (c : Char) : Option Nat :=
  if '0' ≤ c ∧ c ≤ '9' then some (c.toNat - '0'.toNat)
  else if 'a' ≤ c ∧ c ≤ 'f' then some (c.toNat - 'a'.toNat + 10)
  else if 'A' ≤ c ∧ c ≤ 'F' then some (c.toNat - 'A'.toNat + 10)
  else none

/-- The number that digits in a base make; there must be at least one. -/
def digits? (base : Nat) (t : Text) : Option Nat :=
  if t.isEmpty then none
  else
    t.foldl
      (fun n? c => n?.bind fun n =>
        (digitValue? c).bind fun d => if d < base then some (n * base + d) else none)
      (some 0)

/-- Whether digits have a zero in front that says nothing. -/
def isPadded (t : Text) : Bool :=
  match t with
  | '0' :: d :: rest => (d :: rest).all Char.isDigit
  | _ => false

/-- A natural number without sign: in base sixteen, eight or two by its mark, else in base ten. -/
def unsigned? (t : Text) : Option Nat :=
  (((after? "0x" t).bind (digits? 16)).or
    (((after? "0o" t).bind (digits? 8)).or ((after? "0b" t).bind (digits? 2)))).or
    (if isPadded t then none else digits? 10 t)

/-- The largest number of seconds. -/
def timeoutLimit : Nat := 0xFFFFFFFFFFFFFFFF

/-- A number of seconds, written plainly. A plus sign may stand before it, and a minus sign before
zero. -/
def timeout? : YamlValue → Option Nat
  | .scalar true t =>
    match after? "-" t with
    | some t => (unsigned? t).filter fun n => n = 0
    | none => (unsigned? ((after? "+" t).getD t)).filter fun n => n ≤ timeoutLimit
  | _ => none

/-- The root of the project. -/
def root? (v : YamlValue) : Option Text := do
  let entries ← entries? v
  entry? "root" ({} : Settings).root text? entries

/-- The directories of the project. -/
def directories? (v : YamlValue) : Option Directories := do
  let entries ← entries? v
  let defaults : Directories := {}
  let specs ← entry? "specs" defaults.specs text? entries
  let implementations ← entry? "implementations" defaults.implementations text? entries
  let related ← entry? "related" defaults.related optionalText? entries
  some { specs := specs, implementations := implementations, related := related }

/-- How concepts are assessed. -/
def assessment? (v : YamlValue) : Option AssessmentSettings := do
  let entries ← entries? v
  let defaults : AssessmentSettings := {}
  let enabled ← entry? "enabled" defaults.enabled bool? entries
  let model ← entry? "model" defaults.model text? entries
  let endpoint ← entry? "endpoint" defaults.endpoint text? entries
  let apiKey ← entry? "api_key" defaults.apiKey optionalText? entries
  let timeout ← entry? "timeout_secs" defaults.timeout timeout? entries
  some
    { enabled := enabled, model := model, endpoint := endpoint, apiKey := apiKey,
      timeout := timeout }

/-- The settings in a mapping. -/
def settings? (v : YamlValue) : Option Settings := do
  let entries ← entries? v
  let defaults : Settings := {}
  let root ← entry? "project" defaults.root root? entries
  let directories ← entry? "paths" defaults.directories directories? entries
  let assessment ← entry? "assessment" defaults.assessment assessment? entries
  let strict ← entry? "strict" defaults.strict bool? entries
  some { root := root, directories := directories, assessment := assessment, strict := strict }

/-- The settings that a YAML text holds. -/
def ofYaml? (text : Text) : Option Settings := do
  match ← Yaml.read? text with
  | none => some {}
  | some value => settings? value

end SettingsDocument

namespace Settings

/-- The settings that a document holds. -/
def parse (document : Text) : Except SettingsError Settings :=
  match (Frontmatter.split document).1 with
  | none => .error .noFrontmatter
  | some text =>
    match SettingsDocument.ofYaml? text with
    | none => .error .malformed
    | some settings => settings.check.map fun _ => settings

/-- The settings in a file. -/
def loadFile (tree : FileTree) (path : Text) : Except SettingsError Settings :=
  match tree.readText path with
  | .ok document => parse document
  | .error cause => .error (.unreadable path cause)

/-- The settings as they are written, for the project in a directory: from the named file, else
from the project's own, else the defaults. -/
def loadWritten (tree : FileTree) (base : Text) (named : Option Text) :
    Except SettingsError Settings :=
  match named with
  | some path => loadFile tree path
  | none =>
    let path := Path.join base fileName
    if tree.pathExists path then loadFile tree path else .ok {}

/-- The settings for the project in a directory, from which a relative root is seen. -/
def load (tree : FileTree) (base : Text) (named : Option Text) : Except SettingsError Settings :=
  (loadWritten tree base named).map fun s =>
    if Path.isAbsolute s.root then s else { s with root := Path.join base s.root }

end Settings

end Concordance
