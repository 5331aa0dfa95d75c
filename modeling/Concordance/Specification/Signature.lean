import Concordance.Specification.Basic
import Concordance.Text.Bracket

set_option autoImplicit false

/-!
# Signature lines

An operation is declared on one line, `name (a: A, b: B) : {ok: T} | {error: E}`, where `->` or
`=>` may stand for the colon. Inputs are separated by commas and outcomes by bars outside of
brackets. An outcome is labelled by the first field of its shape, or else by its position.
-/

namespace Concordance.Signature

open Text

/-- The text that describes the outcomes, after one of the three separators. -/
def outcomes? (tail : Text) : Option Text :=
  (after? "->" tail).or ((after? "=>" tail).or (after? ":" tail))

/-- A parameter with its type, which is empty if none is given; nothing for a blank part. -/
def input? (part : Text) : Option (Text × Text) :=
  let part := trim part
  if part.isEmpty then none
  else match cutAt ':' part with
    | some (name, type) => some (trim name, trim type)
    | none => some (part, [])

/-- The inputs that a parameter list declares. -/
def inputs (list : Text) : Dict Text := Dict.ofList ((splitTop ',' list).filterMap input?)

/-- The label of an outcome of the shape `{label: T}` or `(label: T)`. -/
def outcomeLabel? (outcome : Text) : Option Text := do
  let (lead, tail) ← cutWhere (fun c => c = '\x7b' || c = '(') outcome
  if !(trim lead).isEmpty then none
  let (inner, _) ← enclosed tail
  let first ← (splitTop ',' inner).head?
  let (label, _) ← cutAt ':' first
  let label := trim label
  if label.isEmpty then none else some label

/-- Adds the outcome at a position, with the position appended to a label that is taken. -/
def addOutcome (found : Dict Text) (part : Nat × Text) : Dict Text :=
  let outcome := trim part.2
  if outcome.isEmpty then found
  else
    let label := (outcomeLabel? outcome).getD (ofNat part.1)
    let key := if found.contains label then label ++ "_" ++ ofNat part.1 else label
    found.insert key outcome

/-- The outcomes by label. -/
def outputs (text : Text) : Dict Text :=
  (numberFrom 0 (splitTop '|' text)).foldl addOutcome .empty

/-- The operation that a trimmed line declares. -/
def parse? (line : Text) (number : Nat) : Option Operation := do
  let (head, tail) ← cutAt '(' line
  let (parameters, rest) ← enclosed tail
  let alternatives ← outcomes? (trimStart rest)
  let name ← (words head).getLast?
  some
    { name := name, signature := line, inputs := inputs parameters,
      outputs := outputs alternatives, description := [], line := number }

end Concordance.Signature
