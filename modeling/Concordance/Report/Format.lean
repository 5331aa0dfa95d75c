import Concordance.Report.Export
import Concordance.Report.Markdown
import Concordance.Report.Page
import Concordance.Files.Tree
import Concordance.Text.Blank
import Concordance.Text.LetterCase

set_option autoImplicit false

/-!
# Formats of reports

Reports are shown on the terminal or written to files: a page, a summary in Markdown and a JSON
document. Files are written one after another, and those before a failure stay.
-/

namespace Concordance

/-- A format in which reports are written to a file. -/
inductive FileFormat where
  | document
  | summary
  | structured
deriving DecidableEq

namespace FileFormat

/-- Every file format. -/
def all : List FileFormat := [.document, .summary, .structured]

/-- The name of a file format. -/
def name : FileFormat → Text
  | document => "document"
  | summary => "summary"
  | structured => "structured"

/-- The name of the file in a format. -/
def fileName : FileFormat → Text
  | document => "validation-report.html"
  | summary => "validation-summary.md"
  | structured => "validation-report.json"

/-- The contents of the file in a format. -/
def render : FileFormat → (time : Text) → List Report → Text
  | document => Page.render
  | summary => Markdown.render
  | structured => Report.exported

end FileFormat

/-- Where reports go. -/
inductive OutputFormat where
  | console
  | file (format : FileFormat)
  | all
deriving DecidableEq

namespace OutputFormat

/-- The name of a format. -/
def name : OutputFormat → Text
  | console => "console"
  | file format => format.name
  | all => "all"

/-- The names that are understood, with what they mean. -/
def names : List (Text × OutputFormat) :=
  [("console", .console), ("document", .file .document), ("html", .file .document),
    ("summary", .file .summary), ("markdown", .file .summary),
    ("structured", .file .structured), ("json", .file .structured), ("all", .all)]

/-- A name as it is looked up. -/
def normalize (t : Text) : Text := Text.lower (Text.trim t)

/-- The format of a name, in any letter case and with blanks around it. -/
def parse? (t : Text) : Option OutputFormat := names.lookup (normalize t)

/-- What is said about a text that names no format. -/
def unknownMessage (t : Text) : Text :=
  "Unknown output format '" ++ normalize t ++
    "'. Use console, document, summary, structured or all"

/-- The file formats that are a part of a format. -/
def files : OutputFormat → List FileFormat
  | console => []
  | file format => [format]
  | all => FileFormat.all

/-- Whether a format shows reports on the terminal. -/
def showsConsole : OutputFormat → Bool
  | console => true
  | file _ => false
  | all => true

end OutputFormat

/-- Why reports could not be written. -/
inductive WriteError where
  | noDirectory (dir : Text) (cause : FileError)
  | noFile (path : Text) (cause : FileError)
deriving DecidableEq

namespace WriteError

/-- The wording of a failure, without its cause. -/
def headline : WriteError → Text
  | noDirectory dir _ => "Failed to create output directory " ++ dir
  | noFile path _ => "Failed to write " ++ path

/-- What a failure goes back to. -/
def cause : WriteError → FileError
  | noDirectory _ cause => cause
  | noFile _ cause => cause

/-- The wording of a failure with its cause. -/
def message (e : WriteError) : Text := e.headline ++ ": " ++ e.cause.message

end WriteError

/-- A tree after writing, and the paths that were written or the failure that ended it. -/
structure Written where
  tree : FileTree
  result : Except WriteError (List Text)

namespace Report

/-- Writes reports into a directory in some formats. -/
def writeFiles (time : Text) (reports : List Report) (dir : Text) :
    FileTree → List FileFormat → Written
  | tree, [] => ⟨tree, .ok []⟩
  | tree, format :: rest =>
    let path := Path.join dir format.fileName
    match tree.writeFile path (.text (format.render time reports)) with
    | .error e => ⟨tree, .error (.noFile path e)⟩
    | .ok tree =>
      let written := writeFiles time reports dir tree rest
      { written with result := written.result.map (path :: ·) }

/-- Writes reports into a directory, which is made if it is missing. Nothing is done if the format
has no files. -/
def write (time : Text) (reports : List Report) (format : OutputFormat) (dir : Text)
    (tree : FileTree) : Written :=
  if format.files.isEmpty then ⟨tree, .ok []⟩
  else
    match tree.makeDirectories dir with
    | .error stop => ⟨stop.tree, .error (.noDirectory dir stop.cause)⟩
    | .ok tree => writeFiles time reports dir tree format.files

end Report

end Concordance
