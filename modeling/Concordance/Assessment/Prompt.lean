import Concordance.Assessment.Basic
import Concordance.Source.Basic
import Concordance.Specification.Basic
import Concordance.Text.Utf8

set_option autoImplicit false

/-!
# Prompts

What a reviewer is asked: a description of the specification and of the implementation, a task,
and the form of the reply.
-/

namespace Concordance.Prompt

open Text

/-- The form that a reply should have. -/
def replyFormat : Text := joinWith "\n"
  ["Respond with a single JSON object and nothing else:",
    "\x7b",
    "  \"alignment\": \"good\" | \"partial\" | \"poor\",",
    "  \"score\": <0-100>,",
    "  \"purposeAlignment\": \"<how well the implementation serves the stated purpose>\",",
    "  \"implementationQuality\": \"<notes on structure, error handling and naming>\",",
    "  \"issues\": [",
    "    \x7b \"severity\": \"critical\" | \"major\" | \"minor\", \"description\": \"...\", " ++
      "\"suggestion\": \"...\" \x7d",
    "  ],",
    "  \"suggestions\": [\"...\"]",
    "\x7d"]

/-- The largest size in bytes of the related text in a prompt. -/
def relatedLimit : Nat := 8000

/-- A text, or a word that there is none. -/
def orNone (t : Text) : Text := if isBlankText t then "(none)" else t

/-- A line of a prompt. -/
def line (t : Text) : Text := t ++ "\n"

/-- A line with an empty one after it. -/
def paragraph (t : Text) : Text := t ++ "\n\n"

/-- The state of a specification. -/
def describeState (state : Dict (Dict Text)) : Text :=
  if state.isEmpty then []
  else
    line "State:" ++
      (state.entries.flatMap fun entity =>
        line ("- " ++ entity.1) ++
          entity.2.entries.flatMap fun field => line ("  - " ++ field.1 ++ ": " ++ field.2)) ++
      "\n"

/-- The operations of a specification under a title. -/
def describeOperations (title : Text) (operations : List Operation) : Text :=
  if operations.isEmpty then []
  else
    line (title ++ ":") ++
      (operations.flatMap fun o =>
        line ("- " ++ o.signature) ++
          onlyIf (!o.description.isEmpty) (line ("  " ++ o.description))) ++
      "\n"

/-- A specification. -/
def describeSpecification (s : Specification) : Text :=
  paragraph ("## Specification: " ++ s.name) ++
    paragraph ("Purpose: " ++ orNone s.purpose) ++
    describeState s.state ++
    describeOperations "Actions" s.actions ++
    describeOperations "Queries" s.queries ++
    onlyIf (!s.principle.isEmpty) (paragraph ("Operational principle: " ++ s.principle))

/-- A parameter. -/
def describeParameter (p : Parameter) : Text :=
  p.name ++ onlyIf p.optional "?" ++ onlyIf (!p.type.isEmpty) (": " ++ p.type)

/-- A method with its text. -/
def describeMethod (d : Method) : Text :=
  line
    ("### " ++ onlyIf d.isAsync "async " ++ d.name ++ "(" ++
      joinWith ", " (d.parameters.map describeParameter) ++ ") -> " ++ orNone d.returnType) ++
    paragraph
      ("lines: " ++ ofNat d.complexity.lineCount ++ ", branches: " ++
        ofNat d.complexity.branchCount ++ ", external calls: " ++
        ofNat d.complexity.externalCallCount) ++
    paragraph ("```ts\n" ++ trimEnd d.body ++ "\n```")

/-- A list of names under a title, if there are any. -/
def describeNames (title : Text) (names : List Text) : Text :=
  onlyIf (!names.isEmpty) (paragraph (title ++ ": " ++ joinWith ", " names))

/-- A source module. -/
def describeModule (m : SourceModule) : Text :=
  paragraph ("## Implementation: " ++ m.exposedType.getD m.name ++ " (" ++ m.path ++ ")") ++
    describeNames "Imports of other concepts" m.dependencies ++
    describeNames "Persistence fields" m.persistenceFields ++
    m.methods.flatMap describeMethod

/-- The related text, cut to its limit, if there is any. -/
def describeRelated (related : Option Text) : Text :=
  match related.filter fun t => !isBlankText t with
  | none => []
  | some t =>
    paragraph "## Related synchronizations" ++
      paragraph ("```\n" ++ truncate relatedLimit t ++ "\n```")

/-- The prompt for a review of a concept and its module. -/
def full (s : Specification) (m : SourceModule) (related : Option Text) : Text :=
  paragraph
    ("You are reviewing whether an implementation faithfully realizes a concept specification.\n" ++
      "Concepts are independent units of behavior: they own their state, expose actions that " ++
      "change it and queries (names starting with `_`) that only read it, and never import " ++
      "other concepts.") ++
    describeSpecification s ++ describeModule m ++ describeRelated related ++
    paragraph
      ("## Task\n\n" ++
        "Judge whether the implementation serves the purpose, whether every action and query " ++
        "is realized with matching inputs and outcomes, whether the state is modelled as " ++
        "declared, and whether the operational principle holds.") ++
    line replyFormat

/-- The question about an aspect. -/
def focus : Aspect → Text
  | .purpose => "Does the implementation serve the stated purpose, and nothing beyond it?"
  | .actions =>
    "Is every declared action implemented with matching inputs, success outcome and " ++
      "error outcome? Are there actions the specification does not declare?"
  | .queries =>
    "Is every declared query implemented, marked with a leading `_`, free of side " ++
      "effects, and returning a list of results?"
  | .state =>
    "Does the persisted state match the declared entities and fields, with nothing " ++
      "missing or extra?"
  | .independence =>
    "Does the implementation stay independent of other concepts: no imports of other " ++
      "concepts, no calls into their state, identities treated as opaque?"

/-- The prompt for a review of one aspect. -/
def narrow (s : Specification) (m : SourceModule) (aspect : Aspect) : Text :=
  paragraph
    ("You are reviewing one aspect (" ++ aspect.name ++
      ") of how an implementation realizes a concept specification.") ++
    describeSpecification s ++ describeModule m ++
    paragraph ("## Task\n\n" ++ focus aspect) ++
    line replyFormat

end Concordance.Prompt
