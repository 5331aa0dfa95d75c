import Concordance.Source.Lexeme

set_option autoImplicit false

/-!
# Exported types, imports and collection fields

Recognisers for the declarations outside of methods. An exported type starts its line; an import
or a field may be indented. Blanks between the words of a declaration may be line breaks.
-/

namespace Concordance.Declaration

open Text Lexeme

/-- The name of a class that is exported at this position. -/
def exportedClass? (t : Text) : Option Text := do
  let t ← keyword? "export" t
  let t ← keyword? "class" (skipKeyword "abstract" (skipKeyword "default" t))
  let (name, _) ← identifier? t
  some name

/-- The name of another type that is exported at this position. -/
def exportedAlias? (t : Text) : Option Text := do
  let t ← keyword? "export" t
  let t ← anyKeyword? ["interface", "type", "enum"] (skipKeyword "default" t)
  let (name, _) ← identifier? t
  some name

/-- The type that a source exposes: its first exported class, and another type only without one. -/
def exposedType? (source : Text) : Option Text :=
  (firstAtLineStart exportedClass? true source).or (firstAtLineStart exportedAlias? true source)

/-- The quotes around an imported path. -/
def isQuote (c : Char) : Bool := c = '"' || c = '\x27'

/-- The characters between the keyword of an import and its path. -/
def inImportClause (c : Char) : Bool :=
  isWordChar c || c = '*' || c = '\x7b' || c = '\x7d' || isBlank c || c = ',' || c = '$'

/-- Whether a text is at least as long as three characters, the first and last of them blank. -/
def isPaddedClause : Text → Bool
  | first :: second :: rest =>
    isBlank first && !rest.isEmpty && ((second :: rest).getLast?.any isBlank)
  | _ => false

/-- Whether what stands between the keyword of an import and its path is well formed: blanks, the
word `type` between blanks, or a clause between blanks that ends with the word `from`. -/
def isImportClause (clause : Text) : Bool :=
  let core := trimEnd clause
  if !clause.all inImportClause ∨ clause.length = core.length then false
  else if core.isEmpty then true
  else
    (match before? "from" core with
      | some lead => isPaddedClause lead
      | none => false) ||
    (match blanks? core with
      | some word => word = "type"
      | none => false)

/-- The path of an import or a re-export at this position. -/
def importPath? (t : Text) : Option (Text × Text) := do
  let t := trimStart t
  let t ← (after? "import" t).or (after? "export" t)
  let (clause, t) ← cutWhere isQuote t
  if !isImportClause clause then none
  let (path, rest) ← cutWhere isQuote t
  if path.isEmpty then none else some (path, rest)

/-- The paths that a source imports or re-exports. -/
def imports (source : Text) : List Text := allAtLineStarts importPath? true 0 source

/-- The modifiers of a field. -/
def fieldModifiers : List Text := ["private", "public", "protected", "readonly"]

/-- The name of a field whose type is a collection. -/
def collectionName? (t : Text) : Option (Text × Text) := do
  let (name, t) ← identifier? t
  let t := trimStart t
  let t := ((after? "!" t).or (after? "?" t)).getD t
  let t ← after? ":" (trimStart t)
  let t ← after? "Collection" (trimStart t)
  let t ← after? "<" (trimStart t)
  some (name, t)

/-- The name of a collection field declared at this position. -/
def collectionField? (t : Text) : Option (Text × Text) :=
  afterModifiers fieldModifiers collectionName? (trimStart t)

/-- Drops each member of a list that equals the one before it. -/
def dropRepeats : List Text → List Text
  | [] => []
  | [a] => [a]
  | a :: b :: rest => if a = b then dropRepeats (b :: rest) else a :: dropRepeats (b :: rest)

/-- The collection fields that a source declares. -/
def collectionFields (source : Text) : List Text :=
  dropRepeats (allAtLineStarts collectionField? true 0 source)

/-- Whether an imported path reaches into another concept: by the alias of the concepts' directory,
or upwards to a file named like a concept's class. -/
def reachesConcept (path : Text) : Bool :=
  startsWith "@concepts/" path ||
    (startsWith "../" path &&
      let file := ((path.splitOn '/').getLast?).getD []
      let stem := ((before? ".ts" file).or (before? ".js" file)).getD file
      endsWith "Concept" stem && 7 < stem.length)

end Concordance.Declaration
