import Concordance.Command.Basic
import Concordance.Report.Console

set_option autoImplicit false

/-!
# Validation

Checks every concept of a project, shows the reports and writes them to files.
-/

namespace Concordance

/-- What a validation is asked for. -/
structure Validation where
  settingsFile : Option Text := none
  overrides : Overrides := {}
  output : Text := "validation-reports"
  format : OutputFormat := .console
  concept : Option Text := none
deriving DecidableEq

namespace Validation

open Text Terminal

/-- What a validation looks at. -/
def scope (v : Validation) (s : Settings) (patternFault : Text → Option Text) : Scope :=
  { specDirectory := s.specDirectory, implementationDirectory := s.implementationDirectory
    relatedDirectory := s.relatedDirectory?, concept := v.concept, patternFault := patternFault }

/-- The warning about a concept that is not there. -/
def unknownConcept (v : Validation) (color : Bool) (r : Run) : Text :=
  match v.concept with
  | none => []
  | some name =>
    onlyIf r.reports.isEmpty
      (Command.warning color ("No concept named '" ++ name ++ "' was found"))

/-- The line about a file that was written. -/
def wroteLine (color : Bool) (path : Text) : Text :=
  paint color [.green] "✓" ++ " Wrote " ++ path ++ "\n"

/-- Shows and writes what a run gave. -/
def deliver (v : Validation) (time : Text) (color strict : Bool) (tree : FileTree) (r : Run) :
    Outcome :=
  let shown := onlyIf v.format.showsConsole (Console.render color r.reports)
  let warning := v.unknownConcept color r
  let written := Report.write time r.reports v.format v.output tree
  match written.result with
  | .error e =>
    { tree := written.tree, stdout := shown, stderr := warning, result := .error (.write e) }
  | .ok paths =>
    { tree := written.tree, stdout := shown ++ paths.flatMap (wroteLine color)
      stderr := warning ++ Console.renderSkipped color r.skipped
      result := .ok (r.exitCode strict) }

/-- Validates a project. -/
def execute {m : Type → Type} [Monad m] (v : Validation) (around : Surroundings m)
    (tree : FileTree) : m Outcome :=
  Command.withSettings around tree v.settingsFile v.overrides fun settings assessor => do
    match ← Run.ofTree assessor tree (v.scope settings around.patternFault) with
    | .error e => pure (.failed tree (.run e))
    | .ok r => pure (v.deliver around.time around.color settings.strict tree r)

end Validation

end Concordance
