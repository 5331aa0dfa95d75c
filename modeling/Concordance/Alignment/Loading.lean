import Concordance.Files.Listing
import Concordance.Source.Reader
import Concordance.Specification.Reader

set_option autoImplicit false

/-!
# Loading a project

The specifications, implementations and related files of a project, each from a directory. A file
that cannot be used is left out, and why is kept.
-/

namespace Concordance

/-- Why a file cannot be used. -/
inductive LoadError where
  | unreadableSpecification (path : Text) (cause : FileError)
  | noHeading
  | unreadableImplementation (path : Text) (cause : FileError)
  | unreadableRelated (path : Text) (cause : FileError)
deriving DecidableEq

namespace LoadError

/-- The wording of an error. -/
def message : LoadError → Text
  | unreadableSpecification path cause =>
    becauseOf ("Failed to read specification " ++ path) cause.message
  | noHeading => "No `concept <name>` header found"
  | unreadableImplementation path cause =>
    becauseOf ("Failed to read implementation " ++ path) cause.message
  | unreadableRelated path cause =>
    becauseOf ("Failed to read related file " ++ path) cause.message

end LoadError

/-- A file that may refer to concepts. -/
structure RelatedFile where
  path : Text
  text : Text
deriving DecidableEq

namespace FileTree

open Text

/-- The specification in a file, which must name its concept. -/
def loadSpecification (tree : FileTree) (path : Text) : Except LoadError Specification := do
  let document ← (tree.readText path).mapError (.unreadableSpecification path)
  let spec := Specification.read document path
  if spec.name.isEmpty then .error .noHeading else .ok spec

/-- The specifications in a directory. -/
def specifications (tree : FileTree) (dir : Text) :
    Except MissingDirectory (Scan Specification) :=
  (tree.list dir ["concept", "md"]).map
    (Scan.ofPaths fun path => (tree.loadSpecification path).mapError LoadError.message)

/-- The module in a file. -/
def loadModule (tree : FileTree) (path : Text) : Except LoadError SourceModule :=
  match tree.readText path with
  | .ok source => .ok (SourceModule.read source path)
  | .error cause => .error (.unreadableImplementation path cause)

/-- Whether a file holds tests or declarations and no implementation. -/
def isAuxiliary (path : Text) : Bool :=
  endsWith ".test.ts" path || endsWith ".d.ts" path

/-- The modules in a directory. -/
def modules (tree : FileTree) (dir : Text) : Except MissingDirectory (Scan SourceModule) :=
  (tree.list dir ["ts"]).map fun paths =>
    Scan.ofPaths (fun path => (tree.loadModule path).mapError LoadError.message)
      (paths.filter fun path => !isAuxiliary path)

/-- A file that may refer to concepts. -/
def loadRelated (tree : FileTree) (path : Text) : Except LoadError RelatedFile :=
  match tree.readText path with
  | .ok text => .ok ⟨path, text⟩
  | .error cause => .error (.unreadableRelated path cause)

/-- The files in a directory that may refer to concepts; none if there is no such directory. -/
def relatedFiles (tree : FileTree) (dir : Option Text) : Scan RelatedFile :=
  match dir.map fun dir => tree.list dir ["ts", "sync", "md"] with
  | some (.ok paths) =>
    Scan.ofPaths (fun path => (tree.loadRelated path).mapError LoadError.message) paths
  | _ => ⟨[], []⟩

end FileTree

end Concordance
