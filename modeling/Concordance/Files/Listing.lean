import Concordance.Files.Tree

set_option autoImplicit false

/-!
# Listing directories

The files of a directory tree with given extensions, in the order of their paths name by name. A
directory is searched once for each extension, so that a file may be found more than once. A scan
loads each of the files and keeps apart those that cannot be used.
-/

namespace Concordance

/-- The names in ascending order, name by name. -/
def sortNames (list : List (List Text)) : List (List Text) := list.mergeSort fun a b => ¬ b < a

/-- Drops what the next one repeats. -/
def dropRepeats : List (List Text) → List (List Text)
  | [] => []
  | [names] => [names]
  | names :: other :: rest =>
    if names = other then dropRepeats (other :: rest) else names :: dropRepeats (other :: rest)

namespace FileTree

open Text

/-- Whether a file's name ends with a dot and one of the extensions. -/
def hasExtension (extensions : List Text) (name : Text) : Bool :=
  extensions.any fun e => endsWith ('.' :: e) name

/-- How a directory is written in front of the files below it: without empty names, and without
leading dots that stand for the working directory. -/
def shownDirectory (dir : Text) : List Text :=
  ((dir.splitOn '/').filter fun name => !name.isEmpty).dropWhile fun name => name = "."

/-- The path of a file below a directory. -/
def shownPath (dir : Text) (names : List Text) : Text :=
  onlyIf (Path.isAbsolute dir) "/" ++ joinWith "/" (shownDirectory dir ++ names)

/-- A directory that is not there. -/
structure MissingDirectory where
  dir : Text
deriving DecidableEq

/-- The wording of a missing directory. -/
def MissingDirectory.message (e : MissingDirectory) : Text := "Directory not found: " ++ e.dir

/-- What stands below a directory under a name with the extension, be it a file or a directory, by
the names that lead to it from there. The extension is taken as it is written. -/
def entriesBelow (tree : FileTree) (top : Place) (extension : Text) : List (List Text) :=
  let below := (tree.nodes.map Prod.fst).filter (isWithin top)
  (below.map fun place => place.drop top.length).filter fun names =>
    names.getLast?.any (hasExtension [extension])

/-- The paths of the files among what was found below a directory for each of the extensions. A file
that was found for several of them is listed once. -/
def listFound (tree : FileTree) (dir : Text) (top : Place) (found : Text → List (List Text))
    (extensions : List Text) : List Text :=
  let files := (extensions.flatMap found).filter fun names => tree.isFile (top ++ names)
  (dropRepeats (sortNames files)).map (shownPath dir)

/-- The paths of the files below a directory with one of the extensions. -/
def list (tree : FileTree) (dir : Text) (extensions : List Text) :
    Except MissingDirectory (List Text) :=
  match tree.directory? dir with
  | none => .error ⟨dir⟩
  | some top => .ok (tree.listFound dir top (tree.entriesBelow top) extensions)

end FileTree

/-- A file that was left out, and why. -/
structure Skipped where
  path : Text
  reason : Text
deriving DecidableEq, Inhabited

/-- What was loaded, and what was left out. -/
structure Scan (α : Type) where
  items : List α
  skipped : List Skipped

namespace Scan

variable {α : Type}

/-- Loads each of the paths. -/
def ofPaths (load : Text → Except Text α) : List Text → Scan α
  | [] => ⟨[], []⟩
  | path :: rest =>
    let scan := ofPaths load rest
    match load path with
    | .ok item => { scan with items := item :: scan.items }
    | .error reason => { scan with skipped := ⟨path, reason⟩ :: scan.skipped }

end Scan

/-- What is said when one thing fails because of another. -/
def becauseOf (what : Text) (cause : Text) : Text := what ++ ": " ++ cause

end Concordance
