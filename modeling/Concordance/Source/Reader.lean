import Concordance.Files.Path
import Concordance.Source.Complexity
import Concordance.Source.Declaration
import Concordance.Source.Extent
import Concordance.Source.Parameters

set_option autoImplicit false

/-!
# Reading source modules

Methods are found line by line: a line that begins like a method and has an extent is one, and the
search goes on after it. Constructors are passed over with their bodies.
-/

namespace Concordance

/-- The beginning of a method: what stands before its parameters. -/
structure MethodHead where
  name : Text
  isAsync : Bool
deriving DecidableEq

namespace MethodHead

open Text Lexeme

/-- The modifiers of a method. -/
def modifiers : List Text :=
  ["public", "private", "protected", "static", "override", "readonly"]

/-- Passes over a list of type parameters if it is there. -/
def skipTypeParameters (t : Text) : Text :=
  match after? "<" t with
  | some inner =>
    match inner.dropWhile fun c => c ≠ '>' && c ≠ '(' with
    | '>' :: rest => rest
    | _ => t
  | none => t

/-- A name with an opening parenthesis after it. -/
def named? (isAsync : Bool) (t : Text) : Option MethodHead := do
  let (name, t) ← identifier? t
  let _ ← after? "(" (trimStart (skipTypeParameters (trimStart t)))
  some ⟨name, isAsync⟩

/-- The beginning of a method that a line has. -/
def parse? (line : Text) : Option MethodHead :=
  afterModifiers modifiers
    (fun t => ((keyword? "async" t).bind (named? true)).or (named? false t)) (trimStart line)

/-- The words that look like a method's name before a parenthesis, and are none. -/
def reserved : List Text :=
  ["if", "for", "while", "switch", "catch", "return", "function", "super", "new", "await",
    "typeof", "throw", "yield", "import", "export"]

/-- The beginning of a method that a line has, unless the line is a statement. -/
def ofLine? (line : Text) : Option MethodHead :=
  (parse? line).filter fun head =>
    !((reserved.any fun word => word = head.name) || endsWith ";" (trimEnd line) ||
      contains (memberAccess persistenceHandle) line)

end MethodHead

namespace SourceModule

open Text Lexeme

/-- The text of the first promise in a text: what stands between its angle brackets, the last of
them on the line of the first. -/
def promised? : Text → Option Text
  | [] => none
  | c :: t =>
    let here : Option Text := do
      let t ← after? "Promise" (c :: t)
      let t ← after? "<" (trimStart t)
      let (_, inner) ← cutAt '>' (t.takeWhile (· ≠ '\n')).reverse
      if inner.isEmpty then none else some inner.reverse
    here.or (promised? t)

/-- The text before the first opening brace outside of angle brackets. The arrow of a function
type closes none. -/
def beforeBrace : (depth : Int) → (previous : Char) → Text → Text
  | _, _, [] => []
  | depth, previous, c :: t =>
    if c = '<' then c :: beforeBrace (depth + 1) c t
    else if c = '>' ∧ previous ≠ '=' then c :: beforeBrace (depth - 1) c t
    else if c = '\x7b' ∧ depth ≤ 0 then []
    else c :: beforeBrace depth c t

/-- The return type in what follows a parameter list. Without an annotation a promise counts. -/
def returnType (tail : Text) : Text :=
  let tail := trim tail
  match after? ":" tail with
  | some annotated =>
    let annotated := trim annotated
    trim ((before? "\x7b" annotated).getD (beforeBrace 0 ' ' annotated))
  | none =>
    match promised? tail with
    | some inner => ("Promise<" : Text) ++ inner ++ ">"
    | none => []

/-- The parameters and the return type in the text of a signature. -/
def readSignature (name signature : Text) : List Parameter × Text :=
  let tail := ((cutAtText name signature).map Prod.snd).getD signature
  match (cutAt '(' tail).bind fun (_, t) => parenthesized t with
  | some (list, rest) => (Parameters.parse list, returnType rest)
  | none => ([], [])

/-- The method on the given lines, the first of which has the given number. -/
def readMethod (head : MethodHead) (extent : Extent) (number : Nat) (lines : List Text) : Method :=
  let (parameters, type) :=
    readSignature head.name (joinWith "\n" (lines.take (extent.opening + 1)))
  let body := joinWith "\n" (lines.take (extent.last + 1))
  { name := head.name, isAsync := head.isAsync, parameters := parameters, returnType := type,
    body := body, isQuery := isQueryName head.name, line := number,
    complexity := Complexity.ofText body }

/-- The head and the extent of a method that begins on the first of the lines. -/
def methodAt? (lines : List Text) : Option (MethodHead × Extent) := do
  let head ← MethodHead.ofLine? (lines.head?.getD [])
  let extent ← Extent.find? 0 lines
  some (head, extent)

/-- The methods that begin on the lines, the first of which has the given number. The first `skip`
lines belong to the method found last. -/
def methodsFrom : (skip number : Nat) → List Text → List Method
  | _, _, [] => []
  | skip + 1, number, _ :: rest => methodsFrom skip (number + 1) rest
  | 0, number, line :: rest =>
    match methodAt? (line :: rest) with
    | none => methodsFrom 0 (number + 1) rest
    | some (head, extent) =>
      (if head.name = "constructor" then []
        else [readMethod head extent number (line :: rest)]) ++
        methodsFrom extent.last (number + 1) rest

/-- The methods of a source. -/
def readMethods (source : Text) : List Method := methodsFrom 0 1 (Text.lines source)

/-- What a source file says. -/
def read (source path : Text) : SourceModule :=
  let imports := Declaration.imports source
  { name := Path.stem path, exposedType := Declaration.exposedType? source,
    methods := readMethods source, imports := imports,
    dependencies := imports.filter Declaration.reachesConcept,
    persistenceFields := Declaration.collectionFields source, path := path }

end SourceModule

end Concordance
