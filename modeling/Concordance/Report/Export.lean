import Concordance.Json.Writer
import Concordance.Report.Statistics

set_option autoImplicit false

/-!
# Reports in JSON

The exported document and the values of its parts. What is not there is left out.
-/

namespace Concordance

open JsonValue

/-- The value of a place. -/
def Location.toJson (l : Location) : JsonValue :=
  record (([("file", text l.file)] : List (Text × JsonValue)) ++ optional "line" (l.line.map nat) ++
    optional "column" (l.column.map nat))

/-- The value of the other side of an issue. -/
def Reference.toJson (r : Reference) : JsonValue :=
  record (([("file", text r.file)] : List (Text × JsonValue)) ++ optional "line" (r.line.map nat) ++
    optional "excerpt" (r.excerpt.map text))

/-- The value of an issue. -/
def Issue.toJson (i : Issue) : JsonValue :=
  record (([("severity", text i.severity.name), ("category", text i.category.name),
      ("message", text i.message), ("description", text i.description),
      ("location", i.location.toJson)] : List (Text × JsonValue)) ++
    optional "suggestion" (i.suggestion.map text) ++
    optional "relatedReference" (i.related.map Reference.toJson))

/-- The value of a summary. -/
def Summary.toJson (s : Summary) : JsonValue :=
  record
    [("errorCount", nat s.errorCount), ("warningCount", nat s.warningCount),
      ("infoCount", nat s.infoCount), ("score", nat s.score)]

/-- The value of an issue that a reviewer reports. -/
def Remark.toJson (r : Remark) : JsonValue :=
  record
    [("severity", text r.gravity.name), ("description", text r.description),
      ("suggestion", text r.suggestion)]

/-- The value of an assessment. -/
def Assessment.toJson (a : Assessment) : JsonValue :=
  record (optional "alignment" (a.alignment.map text) ++ optional "score" (a.score.map nat) ++
    ([("purposeAlignmentNote", text a.purposeNote),
      ("implementationQualityNote", text a.qualityNote),
      ("issues", .array (a.issues.map Remark.toJson)),
      ("suggestions", texts a.suggestions)] : List (Text × JsonValue)))

/-- The value of a report. -/
def Report.toJson (r : Report) : JsonValue :=
  record (([("conceptName", text r.conceptName), ("specFile", text r.specFile),
      ("implementationFile", text r.implementationFile), ("relatedFiles", texts r.relatedFiles),
      ("issues", .array (r.issues.map Issue.toJson)),
      ("summary", r.summary.toJson)] : List (Text × JsonValue)) ++
    optional "assessment" (r.assessment.map Assessment.toJson))

/-- The value of the totals. -/
def Statistics.toJson (s : Statistics) : JsonValue :=
  record
    [("conceptsAnalyzed", nat s.concepts), ("totalErrors", nat s.errors),
      ("totalWarnings", nat s.warnings), ("averageScore", .number s.averageNumeral)]

/-- The exported document for reports, as of a time. -/
def Report.exported (time : Text) (reports : List Report) : Text :=
  (record
    [("timestamp", text time), ("summary", (Statistics.ofReports reports).toJson),
      ("reports", .array (reports.map Report.toJson))]).write

end Concordance
