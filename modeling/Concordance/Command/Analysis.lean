import Concordance.Command.Basic
import Concordance.Report.Console

set_option autoImplicit false

/-!
# Analysis

Asks the completion service about one aspect of one concept and shows what it says.
-/

namespace Concordance

/-- What an analysis is asked for. -/
structure Analysis where
  concept : Text
  aspect : Aspect
  settingsFile : Option Text := none
  overrides : Overrides := {}
deriving DecidableEq

namespace Analysis

open Text Terminal

/-- A score in brackets, after something else. -/
def bracketedScore (n : Nat) : Text := " (" ++ scoreText n ++ ")"

/-- The line about alignment. -/
def alignmentLine (alignment : Text) (score : Option Nat) : Text :=
  Console.line ("  Alignment: " ++ alignment ++ score.elim [] bracketedScore)

/-- An issue that the service reports. -/
def remark (r : Remark) : Text :=
  "  [" ++ r.gravity.severity.label ++ "] " ++ r.description ++ "\n" ++
    onlyIf (!r.suggestion.isEmpty) (Console.advice "    " r.suggestion)

/-- What the service says. -/
def render (color : Bool) (concept : Text) (aspect : Aspect) (a : Assessment) : Text :=
  paint color [.bold] concept ++ " " ++ paint color [.dimmed] ("(" ++ aspect.name ++ ")") ++ "\n" ++
    (a.alignment.elim [] fun t => alignmentLine t a.score) ++
    "  " ++ a.purposeNote ++ "\n" ++ Console.furtherNote "  " a ++
    a.issues.flatMap remark ++ a.suggestions.flatMap (Console.advice "  ")

/-- The specification and the module of the concept. -/
def find (concept : Text) (tree : FileTree) (s : Settings) :
    Except CommandError (Specification × SourceModule) := do
  let key := conceptKey concept
  let specs ← (tree.specifications s.specDirectory).mapError .directory
  match specs.items.find? fun s => conceptKey s.name = key with
  | none => .error (.noSpecification concept)
  | some spec => do
    let modules ← (tree.modules s.implementationDirectory).mapError .directory
    match modules.items.find? fun m => m.realises key with
    | none => .error (.noImplementation concept)
    | some d => .ok (spec, d)

/-- Analyses an aspect of a concept. -/
def execute {m : Type → Type} [Monad m] (a : Analysis) (around : Surroundings m)
    (tree : FileTree) : m Outcome :=
  Command.withSettings around tree a.settingsFile a.overrides fun settings assessor =>
    match find a.concept tree settings with
    | .error e => pure (.failed tree e)
    | .ok (spec, d) => do
      match ← assessor.assessAspect spec d a.aspect with
      | none => pure (.failed tree .noService)
      | some assessment =>
        pure
          { tree := tree, stdout := render around.color spec.name a.aspect assessment
            result := .ok 0 }

end Analysis

end Concordance
