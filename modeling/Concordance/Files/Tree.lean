import Concordance.Files.Path

set_option autoImplicit false

/-!
# File trees

A file tree is a value: what stands at each place, in some order, and a working directory from
which relative paths are followed. Commands read a tree and give back the tree that they leave.
A file holds text, or bytes that are the encoding of no text.

A tree has no permissions, no links and no device that can fail. So whatever stands below a
directory can be looked at: an entry that a search comes upon and cannot read has no counterpart
here. And a file is written whole or not touched: neither has a write that fails after the old
contents are gone.
-/

namespace Concordance

/-- What a file holds. -/
inductive Contents where
  | text (t : Text)
  /-- Bytes that do not encode a text. -/
  | binary (bytes : ByteArray)

/-- The contents that bytes are. -/
def Contents.ofBytes (bytes : ByteArray) : Contents :=
  match String.fromUTF8? bytes with
  | some s => .text s.toList
  | none => .binary bytes

/-- What stands at a place. -/
inductive Node where
  | file (contents : Contents)
  | directory

/-- Whether a file or a directory can have a name: the name is not empty, holds no slash, and is not
one of the two that stand for a directory itself and for its parent. -/
def isFileName (name : Text) : Bool :=
  !name.isEmpty && name.all (· ≠ '/') && name ≠ "." && name ≠ ".."

/-- The names that lead from the root to a place. -/
abbrev Place := List Text

/-- Whether something can stand at a place below the root. -/
def Place.isProper (place : Place) : Bool := !place.isEmpty && place.all isFileName

/-- Why a file operation fails. -/
inductive FileError where
  | notFound
  | alreadyExists
  | notDirectory
  | isDirectory
  | notText
deriving DecidableEq

namespace FileError

/-- The wording of a failure. -/
def message : FileError → Text
  | notFound => "No such file or directory (os error 2)"
  | alreadyExists => "File exists (os error 17)"
  | notDirectory => "Not a directory (os error 20)"
  | isDirectory => "Is a directory (os error 21)"
  | notText => "stream did not contain valid UTF-8"

end FileError

/-- A file tree with a working directory. -/
structure FileTree where
  /-- What stands at each place below the root. -/
  nodes : List (Place × Node)
  workingDirectory : Place
  /-- At each place stands one thing at most. -/
  distinct : (nodes.map Prod.fst).Nodup
  /-- Nothing stands at the root or under a name that no file can have. -/
  proper : ∀ n ∈ nodes, n.1.isProper = true
  /-- The working directory has names that directories can have. -/
  workingNames : workingDirectory.all isFileName = true

namespace FileTree

open Text

/-- What stands at a place. The root is a directory. -/
def node? (tree : FileTree) (place : Place) : Option Node :=
  if place.isEmpty then some .directory
  else (tree.nodes.find? fun n => n.1 = place).map Prod.snd

/-- Whether a file stands at a place. -/
def isFile (tree : FileTree) (place : Place) : Bool :=
  match tree.node? place with
  | some (.file _) => true
  | _ => false

/-- Follows names from a place. Each name but the last must lead to a directory. -/
def follow (tree : FileTree) : Place → List Text → Except FileError Place
  | place, [] => .ok place
  | place, name :: rest =>
    match tree.node? place with
    | some .directory =>
      if name = ".." then follow tree place.dropLast rest
      else follow tree (place ++ [name]) rest
    | some (.file _) => .error .notDirectory
    | none => .error .notFound

/-- Where a path starts. -/
def startOf (tree : FileTree) (path : Text) : Place :=
  if Path.isAbsolute path then [] else tree.workingDirectory

/-- Whether a path can only be that of a directory. -/
def asksForDirectory (path : Text) : Bool := endsWith "/" path || endsWith "/." path

/-- The place that a path leads to. Something need not stand there. -/
def resolve (tree : FileTree) (path : Text) : Except FileError Place :=
  if path.isEmpty then .error .notFound
  else do
    let place ← tree.follow (tree.startOf path) (Path.names path)
    if asksForDirectory path then
      match tree.node? place with
      | some .directory => .ok place
      | some (.file _) => .error .notDirectory
      | none => .error .notFound
    else .ok place

/-- What stands at the end of a path. -/
def lookup (tree : FileTree) (path : Text) : Except FileError Node := do
  let place ← tree.resolve path
  match tree.node? place with
  | some node => .ok node
  | none => .error .notFound

/-- Whether something stands at the end of a path. -/
def pathExists (tree : FileTree) (path : Text) : Bool :=
  match tree.lookup path with
  | .ok _ => true
  | .error _ => false

/-- The place of the directory at the end of a path. -/
def directory? (tree : FileTree) (path : Text) : Option Place :=
  match tree.resolve path with
  | .ok place =>
    match tree.node? place with
    | some .directory => some place
    | _ => none
  | .error _ => none

/-- The text of the file at the end of a path. -/
def readText (tree : FileTree) (path : Text) : Except FileError Text := do
  match ← tree.lookup path with
  | .directory => .error .isDirectory
  | .file (.text t) => .ok t
  | .file (.binary _) => .error .notText

/-- The tree with nothing but what stands at the places to keep. -/
def restrict (tree : FileTree) (keep : Place → Bool) : FileTree :=
  { tree with
    nodes := tree.nodes.filter fun n => keep n.1
    distinct := tree.distinct.sublist (List.filter_sublist.map Prod.fst)
    proper := fun n hn => tree.proper n (List.mem_filter.mp hn).1 }

/-- A restricted tree has nothing at the places that were not kept. -/
theorem keep_of_mem_restrict {tree : FileTree} {keep : Place → Bool} {place : Place}
    (h : place ∈ (tree.restrict keep).nodes.map Prod.fst) : keep place = true := by
  obtain ⟨n, hn, rfl⟩ := List.mem_map.mp h
  exact (List.mem_filter.mp hn).2

/-- The tree with something else at a place, if something can stand there. -/
def put (tree : FileTree) (place : Place) (node : Node) : FileTree :=
  if hplace : place.isProper = true then
    let others := tree.restrict fun p => p ≠ place
    { others with
      nodes := others.nodes ++ [(place, node)]
      distinct := by
        rw [List.map_append, List.nodup_append]
        refine ⟨others.distinct, by simp, ?_⟩
        intro p hp q hq
        have hne : p ≠ place := by simpa using keep_of_mem_restrict hp
        simpa [List.mem_singleton.mp hq] using hne
      proper := by
        intro n hn
        rcases List.mem_append.mp hn with hn | hn
        · exact others.proper n hn
        · rw [List.mem_singleton.mp hn]
          exact hplace }
  else tree

/-- Writes a file where none stands or in place of one. -/
def writeFile (tree : FileTree) (path : Text) (contents : Contents) :
    Except FileError FileTree := do
  let place ← tree.resolve path
  match tree.node? place with
  | some .directory => .error .isDirectory
  | _ => .ok (tree.put place (.file contents))

/-- Whether names lead from a place to a directory. -/
def leadsToDirectory (tree : FileTree) (start : Place) (names : List Text) : Bool :=
  match tree.follow start names with
  | .ok place =>
    match tree.node? place with
    | some .directory => true
    | _ => false
  | .error _ => false

/-- Makes one directory, where names lead to from a place. What leads to it must be there, and if
the names are `dotted`, with a dot behind them, so must the directory itself. -/
def makeDirectory (tree : FileTree) (start : Place) (dotted : Bool) (names : List Text) :
    Except FileError FileTree := do
  let place ← tree.follow start names
  match tree.node? place with
  | some .directory => .error .alreadyExists
  | some (.file _) => .error (if dotted then .notDirectory else .alreadyExists)
  | none =>
    if dotted then .error .notFound
    else
      match tree.node? place.dropLast with
      | some .directory => .ok (tree.put place .directory)
      | some (.file _) => .error .notDirectory
      | none => .error .notFound

/-- Makes a directory, unless it is there already. -/
def ensureDirectory (tree : FileTree) (start : Place) (dotted : Bool) (names : List Text) :
    Except FileError FileTree :=
  match tree.makeDirectory start dotted names with
  | .ok tree => .ok tree
  | .error e => if tree.leadsToDirectory start names then .ok tree else .error e

/-- Why an operation of several steps fails, and the tree that the steps before leave. -/
structure Interruption where
  tree : FileTree
  cause : FileError

/-- Makes the directory that names, last one first, lead to, and where something on the way is
missing, that before. -/
def makeAlong (tree : FileTree) (start : Place) :
    (dotted : Bool) → (lastFirst : List Text) → Except Interruption FileTree
  | _, [] => .ok tree
  | dotted, name :: parents =>
    match tree.ensureDirectory start dotted (name :: parents).reverse with
    | .ok tree => .ok tree
    | .error .notFound => do
      let tree ← makeAlong tree start false parents
      (tree.ensureDirectory start dotted (name :: parents).reverse).mapError fun e => ⟨tree, e⟩
    | .error e => .error ⟨tree, e⟩

/-- Makes a directory and those that lead to it, as far as they are missing. A dot at the end of a
path makes nothing: the directory before it must be there. -/
def makeDirectories (tree : FileTree) (path : Text) : Except Interruption FileTree :=
  tree.makeAlong (tree.startOf path) (Path.endsInDot path) (Path.names path).reverse

/-- Whether a place is the given one or lies below it. -/
def isWithin (top place : Place) : Bool := top.isPrefixOf place

/-- The tree without what stands at the end of a path and below it, if something does. -/
def remove? (tree : FileTree) (path : Text) : Option FileTree :=
  match tree.resolve path with
  | .ok place =>
    (tree.node? place).map fun _ => tree.restrict fun p => !isWithin place p
  | .error _ => none

/-- What stands at a place, if it is a file below a directory, by the names that lead to it from
there. -/
def fileBelow? (top place : Place) : Node → Option (List Text × Contents)
  | .file contents => if isWithin top place then some (place.drop top.length, contents) else none
  | .directory => none

/-- The files below a directory, by the names that lead to them from there. -/
def filesBelow (tree : FileTree) (top : Place) : List (List Text × Contents) :=
  tree.nodes.filterMap fun n => fileBelow? top n.1 n.2

/-- The tree with nothing but a working directory and what leads to it. Names that no directory can
have are passed over. -/
def fresh (names : List Text) : FileTree :=
  let workingDirectory := names.filter isFileName
  (List.range workingDirectory.length).foldl
    (fun tree n => tree.put (workingDirectory.take (n + 1)) .directory)
    { nodes := [], workingDirectory := workingDirectory, distinct := List.nodup_nil
      proper := fun _ hn => nomatch hn
      workingNames := List.all_filter.trans (by simp) }

end FileTree

end Concordance
