import Concordance.Command.Invocation
import Concordance.Report.TimeStamp
import Std.Time.DateTime.Timestamp

set_option autoImplicit false

/-!
# The program

Reads what a command needs of the file system into a tree, runs the command on it, and writes what
the command changed. All decisions are made by the library.
-/

namespace Concordance.Program

open Text

/-- The path of a place. -/
def pathOf (place : Place) : String := String.ofList ('/' :: joinWith "/" place)

/-- The extensions of the files that a command looks for in directories. -/
def extensions : List Text := ["concept", "md", "ts", "sync"]

/-- The tree with what stands at a place. -/
def observe (tree : FileTree) (place : Place) : IO FileTree := do
  let path := (← IO.currentDir) / pathOf place
  if ← path.isDir then pure (tree.put place .directory)
  else if ← path.pathExists then do
    let bytes ← IO.FS.readBinFile path
    pure (tree.put place (.file (.ofBytes bytes)))
  else pure tree

/-- The tree with what stands at a path and on the way to it, and the place of it. -/
def observePath (tree : FileTree) (path : Text) : IO (FileTree × Place) := do
  let mut tree := tree
  let mut place := tree.startOf path
  for name in Path.names path do
    place := if name = ".." then place.dropLast else place ++ [name]
    tree ← observe tree place
  pure (tree, place)

/-- The tree with the files below a path that a command may read. -/
def observeBelow (tree : FileTree) (path : Text) : IO FileTree := do
  let (start, place) ← observePath tree path
  let mut tree := start
  let mut queue := [place]
  repeat
    match queue with
    | [] => break
    | dir :: rest =>
      queue := rest
      let path := (← IO.currentDir) / pathOf dir
      if ← path.isDir then
        for entry in ← path.readDir do
          let name := entry.fileName.toList
          let below := dir ++ [name]
          if ← entry.path.isDir then
            tree := tree.put below .directory
            queue := below :: queue
          else if FileTree.hasExtension extensions name then
            tree ← observe tree below
  pure tree

/-- The tree with what a command that has settings reads. -/
def observeProject (tree : FileTree) (named : Option Text) (overrides : Overrides) :
    IO FileTree := do
  let file := named.getD (Path.join (overrides.root.getD ".") Settings.fileName)
  let (tree, _) ← observePath tree file
  match Command.settings tree named overrides with
  | .error _ => pure tree
  | .ok settings =>
    let tree ← observeBelow tree settings.specDirectory
    let tree ← observeBelow tree settings.implementationDirectory
    match settings.relatedDirectory? with
    | some dir => observeBelow tree dir
    | none => pure tree

/-- The tree with what a command reads. -/
def observeFor (tree : FileTree) : Invocation → IO FileTree
  | .validate v => do
    let tree ← observeProject tree v.settingsFile v.overrides
    let (tree, _) ← observePath tree v.output
    FileFormat.all.foldlM
      (fun tree format => do
        let (tree, _) ← observePath tree (Path.join v.output format.fileName)
        pure tree)
      tree
  | .init s => do
    let (tree, _) ← observePath tree (Path.join s.project Settings.fileName)
    pure tree
  | .analyze a => observeProject tree a.settingsFile a.overrides

/-- Writes what differs from the tree before. -/
def writeChanges (before after : FileTree) : IO Unit :=
  after.nodes.forM fun (place, node) =>
    match node, before.node? place with
    | .directory, some .directory => pure ()
    | .directory, _ => IO.FS.createDirAll (pathOf place)
    | .file (.text t), some (.file (.text old)) =>
      if t = old then pure () else IO.FS.writeFile (pathOf place) (String.ofList t)
    | .file (.text t), _ => IO.FS.writeFile (pathOf place) (String.ofList t)
    | .file (.binary _), _ => pure ()

/-- Whether the terminal shows colors. -/
def showsColor : IO Bool := do
  if (← IO.getEnv "NO_COLOR").isSome then pure false else (← IO.getStdout).isTty

/-- The time now. -/
def now : IO Text := do
  let time ← Std.Time.Timestamp.now
  pure (TimeStamp.ofSeconds time.toSecondsSinceUnixEpoch.val.toNat)

/-- The surroundings of the process. -/
def surroundings : IO (Surroundings IO) := do
  let key ← IO.getEnv (String.ofList Settings.apiKeyVariable)
  pure
    { apiKey := key.map String.toList
      complete := fun service prompt => pure (service.complete prompt).toOption
      time := ← now
      color := ← showsColor }

/-- Does what a command line asks for. -/
def run (args : List Text) : IO Completion := do
  let around ← surroundings
  let start := FileTree.fresh (Path.names (toString (← IO.currentDir)).toList)
  match Invocation.parse args with
  | .error halt => pure (.ofHalt start halt)
  | .ok invocation => do
    let tree ← observeFor start invocation
    let completion ← Completion.ofArguments around tree args
    writeChanges tree completion.tree
    pure completion

end Concordance.Program

/-- Runs the program on its arguments. -/
def main (args : List String) : IO UInt32 := do
  let completion ← Concordance.Program.run (args.map String.toList)
  (← IO.getStdout).putStr (String.ofList completion.stdout)
  (← IO.getStderr).putStr (String.ofList completion.stderr)
  pure completion.code.toUInt32
