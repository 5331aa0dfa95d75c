import Concordance.Text.Basic

set_option autoImplicit false

/-!
# Paths

A path is a text of names separated by slashes. Joining keeps both texts as they are written;
names are only interpreted when a path is followed, ordered or asked for its file name.
-/

namespace Concordance.Path

open Text

/-- Whether a path starts at the root. -/
def isAbsolute (path : Text) : Bool := startsWith "/" path

/-- A path seen from a directory. An absolute path stays what it is. -/
def join (dir path : Text) : Text :=
  if isAbsolute path then path
  else if dir.isEmpty then path
  else if endsWith "/" dir then dir ++ path
  else dir ++ ('/' :: path)

/-- The names on a path that move along it: neither empty nor `.`. -/
def names (path : Text) : List Text :=
  (path.splitOn '/').filter fun name => !name.isEmpty && name ≠ "."

/-- Whether the last name that is written on a path is a dot. -/
def endsInDot (path : Text) : Bool :=
  ((path.splitOn '/').filter fun name => !name.isEmpty).getLast? = some "."

/-- The name of the file at a path, unless the path ends in the root or in a parent. -/
def fileName? (path : Text) : Option Text :=
  (names path).getLast?.filter fun name => name ≠ ".."

/-- A file name without what follows its last dot. A dot in front ends nothing. -/
def withoutExtension (name : Text) : Text :=
  match cutAt '.' name.reverse with
  | none => name
  | some (_, stem) => if stem.isEmpty then name else stem.reverse

/-- The name of the file at a path without its extension. -/
def stem (path : Text) : Text := ((fileName? path).map withoutExtension).getD []

end Concordance.Path
