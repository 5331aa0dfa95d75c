import Concordance.Assessment.Basic
import Concordance.Json.Double
import Concordance.Json.Reader

set_option autoImplicit false

/-!
# Replies

A reviewer is asked for a JSON object. The first balanced object in the reply is read; each member
is optional, several spellings of a key mean the same member, and members that nobody asked for are
passed over. A reply without such an object, or with one that does not have the agreed form, is
taken as a note.
-/

namespace Concordance.Reply

open Text

/-! ### The embedded object -/

/-- The text up to the brace that closes one more than the `depth` braces open inside of it. Braces
in string literals do not count; `quoted` and `escaped` tell where in a literal the text begins. -/
def closingFrom : (depth : Nat) → (quoted escaped : Bool) → Text → Option Text
  | _, _, _, [] => none
  | depth, true, true, c :: t => (closingFrom depth true false t).map (c :: ·)
  | depth, true, false, c :: t =>
    (closingFrom depth (c ≠ '"') (c = '\\') t).map (c :: ·)
  | depth, false, _, c :: t =>
    if c = '"' then (closingFrom depth true false t).map (c :: ·)
    else if c = '\x7b' then (closingFrom (depth + 1) false false t).map (c :: ·)
    else if c = '\x7d' then
      match depth with
      | 0 => some [c]
      | depth + 1 => (closingFrom depth false false t).map (c :: ·)
    else (closingFrom depth false false t).map (c :: ·)

/-- The text from the first opening brace to the one that closes it. -/
def firstObject? (t : Text) : Option Text := do
  let (_, rest) ← cutAt '\x7b' t
  let inner ← closingFrom 0 false false rest
  some ('\x7b' :: inner)

/-! ### The members -/

/-- The members of an object whose keys denote texts, as all must. -/
def keyed? (members : List (JsonString × JsonValue)) : Option (List (Text × JsonValue)) :=
  members.mapM fun m => m.1.map fun key => (key, m.2)

/-- Decodes the member with one of the given keys, of which there must not be two. -/
def member? {α : Type} (keys : List Text) (absent : α) (decode : JsonValue → Option α)
    (members : List (Text × JsonValue)) : Option α :=
  match members.filter fun m => m.1 ∈ keys with
  | [] => some absent
  | [m] => decode m.2
  | _ => none

/-- A text. -/
def text? : JsonValue → Option Text
  | .string s => s
  | _ => none

/-- A text or nothing. -/
def optionalText? : JsonValue → Option (Option Text)
  | .null => some none
  | v => (text? v).map some

/-- A score or nothing. -/
def score? : JsonValue → Option (Option Nat)
  | .null => some none
  | .number n => n.percentage?.map some
  | _ => none

/-- A list of values of one form. -/
def list? {α : Type} (decode : JsonValue → Option α) : JsonValue → Option (List α)
  | .array items => items.mapM decode
  | _ => none

/-- A reviewer's severity: a name, or an object with the name as its key and nothing else. -/
def gravity? : JsonValue → Option Gravity
  | .string s => s.map Gravity.ofName
  | .object [(some name, .null)] => some (.ofName name)
  | _ => none

/-- A reviewer's issue: an object, or a list of its members in order, the last of which may be
missing. -/
def remark? : JsonValue → Option Remark
  | .object members => do
    let members ← keyed? members
    let gravity ← member? ["severity"] .minor gravity? members
    let description ← member? ["description"] [] text? members
    let suggestion ← member? ["suggestion"] [] text? members
    some ⟨gravity, description, suggestion⟩
  | .array [] => some ⟨.minor, [], []⟩
  | .array [g] => do some ⟨← gravity? g, [], []⟩
  | .array [g, d] => do some ⟨← gravity? g, ← text? d, []⟩
  | .array [g, d, s] => do some ⟨← gravity? g, ← text? d, ← text? s⟩
  | _ => none

/-- The keys of the note on the purpose. -/
def purposeKeys : List Text := ["purpose_alignment_note", "purposeAlignment", "purpose_alignment"]

/-- The keys of the note on the implementation. -/
def qualityKeys : List Text :=
  ["implementation_quality_note", "implementationQuality", "implementation_quality"]

/-- The assessment that an object of the agreed form holds. -/
def assessment? : JsonValue → Option Assessment
  | .object members => do
    let members ← keyed? members
    let alignment ← member? ["alignment"] none optionalText? members
    let score ← member? ["score"] none score? members
    let purpose ← member? purposeKeys none optionalText? members
    let quality ← member? qualityKeys none optionalText? members
    let issues ← member? ["issues"] [] (list? remark?) members
    let suggestions ← member? ["suggestions"] [] (list? text?) members
    some
      { alignment := alignment, score := score, purposeNote := purpose.getD [],
        qualityNote := quality.getD [], issues := issues, suggestions := suggestions }
  | _ => none

/-- The assessment that a reply holds. -/
def parse (reply : Text) : Assessment :=
  ((firstObject? reply).bind fun o => (JsonValue.read? o).bind assessment?).getD
    { purposeNote := trim reply }

end Concordance.Reply
