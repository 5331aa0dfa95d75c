import Concordance.Files.Listing
import Concordance.Report.Group
import Concordance.Report.Statistics
import Concordance.Report.Terminal

set_option autoImplicit false

/-!
# Reports on the terminal

Each report as a short listing, and the totals in a line at the end.
-/

namespace Concordance.Console

open Text Terminal

/-- The text on a line of its own. -/
def line (t : Text) : Text := t ++ "\n"

/-- The sign of a severity. -/
def sign (color : Bool) : Severity → Text
  | .error => paint color [.red] "✗"
  | .warning => paint color [.yellow] "⚠"
  | .info => paint color [.cyan] "ℹ"

/-- The style of a grade. -/
def gradeStyle : Grade → Style
  | .good => .green
  | .fair => .yellow
  | .poor => .red

/-- A score in the style of its grade. -/
def score (color : Bool) (n : Nat) : Text :=
  paint color [gradeStyle (.ofScore n)] (scoreText n)

/-- An advice under something else. -/
def advice (indent : Text) (t : Text) : Text := line (indent ++ "→ " ++ t)

/-- An issue. -/
def issue (color : Bool) (i : Issue) : Text :=
  line ("    " ++ sign color i.severity ++ " [" ++ i.category.name ++ "] " ++ i.message) ++
    line ("      " ++ paint color [.dimmed] i.location.render) ++
    i.suggestion.elim [] (advice "      ")

/-- A group of issues. -/
def group (color : Bool) (g : IssueGroup) : Text :=
  line ("  " ++ paint color [.bold] g.severity.title ++ " (" ++ ofNat g.issues.length ++ ")") ++
    g.issues.flatMap (issue color)

/-- The note on quality where it adds something to that on purpose. -/
def furtherNote (indent : Text) (a : Assessment) : Text :=
  onlyIf (!a.qualityNote.isEmpty && a.qualityNote ≠ a.purposeNote) (line (indent ++ a.qualityNote))

/-- An assessment. -/
def assessment (color : Bool) (a : Assessment) : Text :=
  line ("  " ++ paint color [.bold] "Assessment") ++ line ("    " ++ a.purposeNote) ++
    furtherNote "    " a ++ a.suggestions.flatMap (advice "    ")

/-- The file of an implementation, marked where there is none. -/
def implementation (color : Bool) (file : Text) : Text :=
  if file = Report.missingImplementation then paint color [.red] file else file

/-- A report. -/
def report (color : Bool) (r : Report) : Text :=
  line (paint color [.bold] r.conceptName ++ " " ++ score color r.summary.score) ++
    onlyIf (!r.specFile.isEmpty)
      (line ("  " ++ paint color [.dimmed] "spec:" ++ " " ++ r.specFile)) ++
    line ("  " ++ paint color [.dimmed] "impl:" ++ " " ++
      implementation color r.implementationFile) ++
    onlyIf r.groups.isEmpty (line ("  " ++ paint color [.green] "✓ No issues")) ++
    r.groups.flatMap (group color) ++ r.assessment.elim [] (assessment color) ++ "\n"

/-- The totals. -/
def totals (color : Bool) (s : Statistics) : Text :=
  line
    (paint color [.bold] "Summary:" ++ " " ++ ofNat s.concepts ++ " concepts, " ++
      paint color [.red] (ofNat s.errors) ++ " errors, " ++
      paint color [.yellow] (ofNat s.warnings) ++ " warnings, " ++ ofNat s.infos ++
      " info, average score " ++ s.averageText)

/-- The reports and their totals. -/
def render (color : Bool) (reports : List Report) : Text :=
  reports.flatMap (report color) ++ totals color (.ofReports reports)

/-- The files that were left out; nothing if there are none. -/
def renderSkipped (color : Bool) (skipped : List Skipped) : Text :=
  if skipped.isEmpty then []
  else
    line (paint color [.bold, .yellow] "Skipped" ++ " (" ++ ofNat skipped.length ++ ")") ++
      skipped.flatMap fun s => line ("  " ++ s.path ++ ": " ++ s.reason)

end Concordance.Console
