import Concordance.Command.Basic
import Concordance.Settings.Template

set_option autoImplicit false

/-!
# Setup

Writes the settings file of a new project.
-/

namespace Concordance

/-- What a setup is asked for. -/
structure Setup where
  project : Text := "."
  /-- Whether a settings file that is there is overwritten. -/
  force : Bool := false
deriving DecidableEq

namespace Setup

open Text Terminal

/-- What is said about a new settings file. -/
def render (color : Bool) (path : Text) : Text :=
  paint color [.green] "✓" ++ " Created " ++ path ++ "\n" ++ paint color [.cyan] "→" ++
    " Edit paths.specs and paths.implementations, then run " ++
    paint color [.bold] "concept-lint validate" ++ "\n"

/-- Sets a project up. -/
def execute (s : Setup) (color : Bool) (tree : FileTree) : Outcome :=
  let path := Path.join s.project Settings.fileName
  let dir := Path.join s.project Settings.directoryName
  if tree.pathExists path && !s.force then .failed tree (.settingsExist path)
  else
    match tree.makeDirectories dir with
    | .error stop => .failed stop.tree (.settingsDirectory dir stop.cause)
    | .ok tree =>
      match tree.writeFile path (.text Settings.template) with
      | .error e => .failed tree (.settingsFile path e)
      | .ok tree => { tree := tree, stdout := render color path, result := .ok 0 }

end Setup

end Concordance
