import Concordance.Report.Group
import Concordance.Report.Statistics
import Concordance.Report.Stylesheet

set_option autoImplicit false

/-!
# Reports as a web page

One page that needs no other files. All text that comes from elsewhere is escaped.
-/

namespace Concordance.Page

open Text

/-- A character as it is written where it would mean something to the browser. -/
def escapeChar (c : Char) : Text :=
  if c = '&' then "&amp;"
  else if c = '<' then "&lt;"
  else if c = '>' then "&gt;"
  else if c = '"' then "&quot;"
  else if c = '\x27' then "&#x27;"
  else if c = '/' then "&#x2F;"
  else [c]

/-- A text as it is written on the page. -/
def escape (t : Text) : Text := t.flatMap escapeChar

/-- A line break and the indentation of the next line. -/
def newLine (indent : Nat) : Text := '\n' :: List.replicate indent ' '

/-- Something between a start tag and its end tag. -/
def element (tag attributes content : Text) : Text :=
  "<" ++ tag ++ attributes ++ ">" ++ content ++ "</" ++ tag ++ ">"

/-- The attribute for a class. -/
def ofClass (name : Text) : Text := " class=\"" ++ name ++ "\""

/-- Lines between a start tag and its end tag, each indented as given. -/
def block (indent : Nat) (tag attributes : Text) (lines : List Text) : Text :=
  element tag attributes (lines.flatMap (newLine (indent + 2) ++ ·) ++ newLine indent)

/-- A part that is only there sometimes: on lines of its own if it is. -/
def part (indent : Nat) (content : Text) : Text := newLine indent ++ content ++ newLine indent

/-- A figure in the overview. -/
def figure (kind value caption : Text) : Text :=
  element "div" (ofClass ("stat" ++ kind)) (element "div" (ofClass "value") value ++ caption)

/-- The overview. -/
def overview (s : Statistics) : Text :=
  block 2 "section" (ofClass "summary")
    [figure [] (ofNat s.concepts) "Concepts", figure " errors" (ofNat s.errors) "Errors",
      figure " warnings" (ofNat s.warnings) "Warnings", figure [] s.averageText "Average score"]

/-- An issue. -/
def issue (i : Issue) : Text :=
  part 6
    (block 6 "div" (ofClass "issue")
      [element "span" (ofClass "category") (escape i.category.name) ++ " " ++ escape i.message,
        onlyIf (!i.description.isEmpty) (element "div" [] (escape i.description)),
        element "div" (ofClass "location") (escape i.location.render),
        (i.suggestion.filter fun s => !s.isEmpty).elim [] fun s =>
          element "div" (ofClass "suggestion") ("Suggestion: " ++ escape s)])

/-- A group of issues. -/
def group (g : IssueGroup) : Text :=
  part 4
    (block 4 "div" (ofClass ("issues " ++ g.severity.name))
      [element "h3" [] (g.severity.title ++ " (" ++ ofNat g.issues.length ++ ")"),
        g.issues.flatMap issue])

/-- The advice of an assessment. -/
def advice (suggestions : List Text) : Text :=
  onlyIf (!suggestions.isEmpty)
    (part 6 (block 6 "ul" [] [suggestions.flatMap fun s => part 8 (element "li" [] (escape s))]))

/-- A note after its caption. -/
def note (caption t : Text) : Text :=
  element "p" [] (element "strong" [] caption ++ " " ++ escape t)

/-- An assessment. -/
def assessment (a : Assessment) : Text :=
  part 4
    (block 4 "div" (ofClass "assessment")
      [element "h3" [] "Assessment",
        (a.alignment.filter fun t => !t.isEmpty).elim [] fun t =>
          element "p" [] ("Alignment: " ++ escape t),
        a.score.elim [] fun n => element "p" [] ("Assessed score: " ++ scoreText n),
        note "Purpose:" a.purposeNote,
        onlyIf (!a.qualityNote.isEmpty) (part 6 (note "Implementation:" a.qualityNote)),
        advice a.suggestions])

/-- The files of a report. -/
def files (r : Report) : Text :=
  block 4 "div" (ofClass "files")
    [element "div" [] ("Specification: " ++ escape r.specFile),
      element "div" [] ("Implementation: " ++ escape r.implementationFile),
      r.relatedFiles.flatMap fun f => part 6 (element "div" [] ("Related: " ++ escape f))]

/-- The heading of a report. -/
def heading (r : Report) : Text :=
  block 4 "h2" []
    [element "span" [] (escape r.conceptName),
      element "span" (ofClass ("score " ++ (Grade.ofScore r.summary.score).name))
        (scoreText r.summary.score)]

/-- A report. -/
def report (r : Report) : Text :=
  part 2
    (block 2 "section" (ofClass "concept")
      [heading r, files r ++ "\n",
        onlyIf r.groups.isEmpty
          (part 4 (element "p" (ofClass "clean") "No issues found.")) ++ "\n",
        r.groups.flatMap group ++ "\n", r.assessment.elim [] assessment])

/-- The head of the page. -/
def head : Text :=
  block 0 "head" []
    ["<meta charset=\"utf-8\">",
      "<meta name=\"viewport\" content=\"width=device-width, initial-scale=1\">",
      element "title" [] "Concept Validation Report",
      element "style" [] ("\n" ++ Stylesheet.text ++ newLine 2)]

/-- The title above the overview. A time stamp has nothing to escape. -/
def banner (time : Text) : Text :=
  block 2 "header" []
    [element "h1" [] "Concept Validation Report",
      element "div" (ofClass "generated") ("Generated " ++ time)]

/-- The page for reports, as of a time. -/
def render (time : Text) (reports : List Report) : Text :=
  let body :=
    block 0 "body" []
      [banner time ++ "\n", overview (.ofReports reports) ++ "\n", reports.flatMap report]
  "<!DOCTYPE html>\n" ++
    element "html" " lang=\"en\"" ("\n" ++ head ++ "\n" ++ body ++ "\n") ++ "\n"

end Concordance.Page
