import Concordance.Alignment.Run
import Concordance.Report.Format
import Concordance.Report.Terminal
import Concordance.Settings.Reader

set_option autoImplicit false

/-!
# Commands

A command reads a file tree and gives back the tree that it leaves, what it printed, and an exit
code or the error that ended it. What it prints and writes before an error stays. The completion
service is the one thing outside of the tree that a command asks.
-/

namespace Concordance

/-- What surrounds a command. -/
structure Surroundings (m : Type → Type) where
  /-- The key for the completion service in the environment. -/
  apiKey : Option Text
  /-- Sends a prompt to a service; nothing comes back if that fails. -/
  complete : Service → Text → m (Option Text)
  /-- The time stamp of the reports. -/
  time : Text
  /-- Whether the terminal shows colors. -/
  color : Bool
  /-- Why no search pattern can be built for a name, where that is so. -/
  patternFault : Text → Option Text := fun _ => none

/-- Why a command ends with an error. -/
inductive CommandError where
  | settings (cause : SettingsError)
  | service (cause : ServiceError)
  | run (cause : RunError)
  | directory (cause : FileTree.MissingDirectory)
  | write (cause : WriteError)
  | noSpecification (concept : Text)
  | noImplementation (concept : Text)
  | noService
  | settingsExist (path : Text)
  | settingsDirectory (dir : Text) (cause : FileError)
  | settingsFile (path : Text) (cause : FileError)
deriving DecidableEq

namespace CommandError

/-- The wording of an error with its causes. -/
def message : CommandError → Text
  | settings cause => cause.message
  | service cause => cause.message
  | run cause => cause.message
  | directory cause => cause.message
  | write cause => cause.message
  | noSpecification concept => "No specification found for concept '" ++ concept ++ "'"
  | noImplementation concept => "No implementation found for concept '" ++ concept ++ "'"
  | noService => "`analyze` needs the assessment service; provide an API key"
  | settingsExist path => path ++ " already exists. Use --force to overwrite it."
  | settingsDirectory dir cause => becauseOf ("Failed to create " ++ dir) cause.message
  | settingsFile path cause => becauseOf ("Failed to write " ++ path) cause.message

end CommandError

/-- What a command leaves. -/
structure Outcome where
  tree : FileTree
  stdout : Text := []
  stderr : Text := []
  result : Except CommandError Nat

namespace Outcome

/-- The outcome of an error before anything was printed. -/
def failed (tree : FileTree) (e : CommandError) : Outcome := { tree := tree, result := .error e }

/-- The outcome after a text on standard error. -/
def afterWarning (warning : Text) (o : Outcome) : Outcome :=
  { o with stderr := warning ++ o.stderr }

end Outcome

namespace Command

open Text Terminal

/-- A warning on a line of its own. -/
def warning (color : Bool) (t : Text) : Text :=
  paint color [.yellow] "Warning:" ++ " " ++ t ++ "\n"

/-- The settings of a command with what the command line says about them. -/
def settings (tree : FileTree) (named : Option Text) (overrides : Overrides) :
    Except SettingsError Settings := do
  let written ← Settings.load tree (overrides.root.getD ".") named
  let settings := written.apply overrides
  settings.check
  pure settings

variable {m : Type → Type}

/-- The assessor that settings ask for, and what is to be said about it. Without a key there is
none. -/
def assessor [Monad m] (around : Surroundings m) (s : Settings) (given : Option Text) :
    Except ServiceError (Assessor m × Text) :=
  if !s.assessment.enabled then .ok (.disabled, [])
  else
    match s.apiKey? given around.apiKey with
    | none =>
      .ok (.disabled, warning around.color
        ("Assessment requested but no API key found (use --api-key or " ++
          Settings.apiKeyVariable ++ "); continuing without it"))
    | some key => do
      let service ← Service.at? s.assessment.endpoint s.assessment.model key
      pure (.service (around.complete service), [])

/-- Runs a command with the settings and the assessor that it asks for. -/
def withSettings [Monad m] (around : Surroundings m) (tree : FileTree) (named : Option Text)
    (overrides : Overrides) (command : Settings → Assessor m → m Outcome) : m Outcome :=
  match settings tree named overrides with
  | .error e => pure (.failed tree (.settings e))
  | .ok s =>
    match assessor around s overrides.apiKey with
    | .error e => pure (.failed tree (.service e))
    | .ok (a, warning) => do
      let outcome ← command s a
      pure (outcome.afterWarning warning)

end Command

end Concordance
