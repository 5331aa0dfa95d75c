import Concordance.Report.Group
import Concordance.Report.Statistics

set_option autoImplicit false

/-!
# Reports in Markdown

A table of the totals, and a section for each report.
-/

namespace Concordance.Markdown

open Text

/-- The text on a line of its own. -/
def line (t : Text) : Text := t ++ "\n"

/-- The text with a blank line after it. -/
def paragraph (t : Text) : Text := t ++ "\n\n"

/-- A text as code. -/
def code (t : Text) : Text := "`" ++ t ++ "`"

/-- An issue. -/
def issue (i : Issue) : Text :=
  line ("- **" ++ i.category.name ++ "** " ++ i.message ++ " (" ++ code i.location.render ++ ")") ++
    i.suggestion.elim [] fun s => line ("  - Suggestion: " ++ s)

/-- A group of issues. -/
def group (g : IssueGroup) : Text :=
  paragraph ("### " ++ g.severity.title) ++ g.issues.flatMap issue ++ "\n"

/-- An assessment. -/
def assessment (a : Assessment) : Text :=
  paragraph "### Assessment" ++ paragraph a.purposeNote ++
    onlyIf (!a.qualityNote.isEmpty) (paragraph a.qualityNote) ++
    a.suggestions.flatMap (fun s => line ("- " ++ s)) ++ onlyIf (!a.suggestions.isEmpty) "\n"

/-- A report. -/
def report (r : Report) : Text :=
  paragraph ("## " ++ r.conceptName ++ " (" ++ scoreText r.summary.score ++ ")") ++
    onlyIf (!r.specFile.isEmpty) (line ("- Specification: " ++ code r.specFile)) ++
    line ("- Implementation: " ++ code r.implementationFile) ++
    r.relatedFiles.flatMap (fun f => line ("- Related: " ++ code f)) ++ "\n" ++
    onlyIf r.groups.isEmpty (paragraph "No issues found.") ++ r.groups.flatMap group ++
    r.assessment.elim [] assessment

/-- The table of the totals. -/
def totals (s : Statistics) : Text :=
  line "| Concepts | Errors | Warnings | Info | Average score |" ++
    line "|---|---|---|---|---|" ++
    paragraph
      ("| " ++ ofNat s.concepts ++ " | " ++ ofNat s.errors ++ " | " ++ ofNat s.warnings ++ " | " ++
        ofNat s.infos ++ " | " ++ s.averageText ++ " |")

/-- The totals and the reports, as of a time. -/
def render (time : Text) (reports : List Report) : Text :=
  paragraph "# Concept Validation Summary" ++ paragraph ("Generated " ++ time) ++
    totals (.ofReports reports) ++ reports.flatMap report

end Concordance.Markdown
