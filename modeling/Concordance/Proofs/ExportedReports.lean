import Concordance.Proofs.JsonFields
import Concordance.Report.Export

set_option autoImplicit false

/-!
# Reading exported reports

The exported document is read by the names of its members. What is read are the reports that were
exported (`readReports?_exported`), whatever texts they hold and whatever they leave out, so that
the text of the reports alone tells which reports they are (`reportsText_injective`).
-/

namespace Concordance

open JsonValue Reply

/-! ## The readers -/

/-- The place that a value states. -/
def Location.ofJson? (v : JsonValue) : Option Location := do
  let file ← v.field? "file" text?
  let line ← v.optionalField? "line" nat?
  let column ← v.optionalField? "column" nat?
  some { file := file, line := line, column := column }

/-- The other side of an issue that a value states. -/
def Reference.ofJson? (v : JsonValue) : Option Reference := do
  let file ← v.field? "file" text?
  let line ← v.optionalField? "line" nat?
  let excerpt ← v.optionalField? "excerpt" text?
  some { file := file, line := line, excerpt := excerpt }

/-- The issue that a value states. -/
def Issue.ofJson? (v : JsonValue) : Option Issue := do
  let severity ← v.field? "severity" (named? Severity.descending Severity.name)
  let category ← v.field? "category" (named? Category.all Category.name)
  let message ← v.field? "message" text?
  let description ← v.field? "description" text?
  let location ← v.field? "location" Location.ofJson?
  let suggestion ← v.optionalField? "suggestion" text?
  let related ← v.optionalField? "relatedReference" Reference.ofJson?
  some
    { severity := severity, category := category, message := message, description := description,
      location := location, suggestion := suggestion, related := related }

/-- The summary that a value states. -/
def Summary.ofJson? (v : JsonValue) : Option Summary := do
  let errorCount ← v.field? "errorCount" nat?
  let warningCount ← v.field? "warningCount" nat?
  let infoCount ← v.field? "infoCount" nat?
  let score ← v.field? "score" nat?
  some
    { errorCount := errorCount, warningCount := warningCount, infoCount := infoCount,
      score := score }

/-- The reviewer's issue that a value states. -/
def Remark.ofJson? (v : JsonValue) : Option Remark := do
  let gravity ← v.field? "severity" (named? [.critical, .major, .minor] Gravity.name)
  let description ← v.field? "description" text?
  let suggestion ← v.field? "suggestion" text?
  some { gravity := gravity, description := description, suggestion := suggestion }

/-- The assessment that a value states. -/
def Assessment.ofJson? (v : JsonValue) : Option Assessment := do
  let alignment ← v.optionalField? "alignment" text?
  let score ← v.optionalField? "score" nat?
  let purposeNote ← v.field? "purposeAlignmentNote" text?
  let qualityNote ← v.field? "implementationQualityNote" text?
  let issues ← v.field? "issues" (list? Remark.ofJson?)
  let suggestions ← v.field? "suggestions" (list? text?)
  some
    { alignment := alignment, score := score, purposeNote := purposeNote,
      qualityNote := qualityNote, issues := issues, suggestions := suggestions }

/-- The report that a value states. -/
def Report.ofJson? (v : JsonValue) : Option Report := do
  let conceptName ← v.field? "conceptName" text?
  let specFile ← v.field? "specFile" text?
  let implementationFile ← v.field? "implementationFile" text?
  let relatedFiles ← v.field? "relatedFiles" (list? text?)
  let issues ← v.field? "issues" (list? Issue.ofJson?)
  let summary ← v.field? "summary" Summary.ofJson?
  let assessment ← v.optionalField? "assessment" Assessment.ofJson?
  some
    { conceptName := conceptName, specFile := specFile, implementationFile := implementationFile,
      relatedFiles := relatedFiles, issues := issues, summary := summary,
      assessment := assessment }

namespace Report

/-- The reports in an exported document. -/
def readReports? (document : Text) : Option (List Report) :=
  (JsonValue.read? document).bind (field? "reports" (list? ofJson?))

/-- The text of reports in an exported document. -/
def reportsText (reports : List Report) : Text := writeAt 1 (.array (reports.map toJson))

end Report

/-! ## Each value states what it was made of -/

namespace Location

/-- The object of a location states its file and, where known, its line and column. -/
theorem states_toJson (l : Location) : States l.toJson
    [("file", some (.text l.file)), ("line", l.line.map .nat), ("column", l.column.map .nat)] :=
  ⟨by simp, by simp [toJson, present, JsonValue.optional]⟩

/-- A location can be written. -/
theorem isWritable_toJson (l : Location) : IsWritable l.toJson := by
  apply l.states_toJson.isWritable
  simp only [List.forall_mem_cons]
  exact ⟨isWritable_some (.string _), isWritable_map isWritable_nat _,
    isWritable_map isWritable_nat _, by simp⟩

/-- A location is read back from its object. -/
theorem ofJson?_toJson (l : Location) : ofJson? l.toJson = some l := by
  have h := l.states_toJson
  have hfile : l.toJson.field? "file" text? = some l.file := h.field? (by simp) (text?_text _)
  have hline : l.toJson.optionalField? "line" nat? = some l.line :=
    h.optionalField? (by simp) nat?_nat
  have hcolumn : l.toJson.optionalField? "column" nat? = some l.column :=
    h.optionalField? (by simp) nat?_nat
  simp only [ofJson?, hfile, hline, hcolumn, Option.bind_eq_bind, Option.bind_some]

end Location

namespace Reference

/-- The object of a reference states its file and, where known, its line and an excerpt. -/
theorem states_toJson (r : Reference) : States r.toJson
    [("file", some (.text r.file)), ("line", r.line.map .nat), ("excerpt", r.excerpt.map .text)] :=
  ⟨by simp, by simp [toJson, present, JsonValue.optional]⟩

/-- A reference can be written. -/
theorem isWritable_toJson (r : Reference) : IsWritable r.toJson := by
  apply r.states_toJson.isWritable
  simp only [List.forall_mem_cons]
  exact ⟨isWritable_some (.string _), isWritable_map isWritable_nat _,
    isWritable_map (fun _ => .string _) _, by simp⟩

/-- A reference is read back from its object. -/
theorem ofJson?_toJson (r : Reference) : ofJson? r.toJson = some r := by
  have h := r.states_toJson
  have hfile : r.toJson.field? "file" text? = some r.file := h.field? (by simp) (text?_text _)
  have hline : r.toJson.optionalField? "line" nat? = some r.line :=
    h.optionalField? (by simp) nat?_nat
  have hexcerpt : r.toJson.optionalField? "excerpt" text? = some r.excerpt :=
    h.optionalField? (by simp) text?_text
  simp only [ofJson?, hfile, hline, hexcerpt, Option.bind_eq_bind, Option.bind_some]

end Reference

namespace Issue

/-- The object of an issue states all that the issue holds. -/
theorem states_toJson (i : Issue) : States i.toJson
    [("severity", some (.text i.severity.name)), ("category", some (.text i.category.name)),
      ("message", some (.text i.message)), ("description", some (.text i.description)),
      ("location", some i.location.toJson), ("suggestion", i.suggestion.map .text),
      ("relatedReference", i.related.map Reference.toJson)] :=
  ⟨by simp, by simp [toJson, present, JsonValue.optional]⟩

/-- An issue can be written. -/
theorem isWritable_toJson (i : Issue) : IsWritable i.toJson := by
  apply i.states_toJson.isWritable
  simp only [List.forall_mem_cons]
  exact ⟨isWritable_some (.string _), isWritable_some (.string _), isWritable_some (.string _),
    isWritable_some (.string _), isWritable_some (Location.isWritable_toJson _),
    isWritable_map (fun _ => .string _) _, isWritable_map Reference.isWritable_toJson _, by simp⟩

/-- A severity is read back from its name. -/
theorem named?_severity (s : Severity) :
    named? Severity.descending Severity.name (.text s.name) = some s :=
  named?_name (by decide) (by cases s <;> decide)

/-- A category is read back from its name. -/
theorem named?_category (c : Category) :
    named? Category.all Category.name (.text c.name) = some c :=
  named?_name (by decide +kernel) (by cases c <;> decide)

/-- An issue is read back from its object. -/
theorem ofJson?_toJson (i : Issue) : ofJson? i.toJson = some i := by
  have h := i.states_toJson
  have hseverity : i.toJson.field? "severity" (named? Severity.descending Severity.name) =
      some i.severity := h.field? (by simp) (named?_severity _)
  have hcategory : i.toJson.field? "category" (named? Category.all Category.name) =
      some i.category := h.field? (by simp) (named?_category _)
  have hmessage : i.toJson.field? "message" text? = some i.message :=
    h.field? (by simp) (text?_text _)
  have hdescription : i.toJson.field? "description" text? = some i.description :=
    h.field? (by simp) (text?_text _)
  have hlocation : i.toJson.field? "location" Location.ofJson? = some i.location :=
    h.field? (by simp) (Location.ofJson?_toJson _)
  have hsuggestion : i.toJson.optionalField? "suggestion" text? = some i.suggestion :=
    h.optionalField? (by simp) text?_text
  have hrelated : i.toJson.optionalField? "relatedReference" Reference.ofJson? = some i.related :=
    h.optionalField? (by simp) Reference.ofJson?_toJson
  simp only [ofJson?, hseverity, hcategory, hmessage, hdescription, hlocation, hsuggestion,
    hrelated, Option.bind_eq_bind, Option.bind_some]

end Issue

namespace Summary

/-- The object of a summary states the three counts and the score. -/
theorem states_toJson (s : Summary) : States s.toJson
    [("errorCount", some (.nat s.errorCount)), ("warningCount", some (.nat s.warningCount)),
      ("infoCount", some (.nat s.infoCount)), ("score", some (.nat s.score))] :=
  ⟨by simp, rfl⟩

/-- A summary can be written. -/
theorem isWritable_toJson (s : Summary) : IsWritable s.toJson := by
  apply s.states_toJson.isWritable
  simp only [List.forall_mem_cons]
  exact ⟨isWritable_some (isWritable_nat _), isWritable_some (isWritable_nat _),
    isWritable_some (isWritable_nat _), isWritable_some (isWritable_nat _), by simp⟩

/-- A summary is read back from its object. -/
theorem ofJson?_toJson (s : Summary) : ofJson? s.toJson = some s := by
  have h := s.states_toJson
  have herrors : s.toJson.field? "errorCount" nat? = some s.errorCount :=
    h.field? (by simp) (nat?_nat _)
  have hwarnings : s.toJson.field? "warningCount" nat? = some s.warningCount :=
    h.field? (by simp) (nat?_nat _)
  have hinfos : s.toJson.field? "infoCount" nat? = some s.infoCount :=
    h.field? (by simp) (nat?_nat _)
  have hscore : s.toJson.field? "score" nat? = some s.score := h.field? (by simp) (nat?_nat _)
  simp only [ofJson?, herrors, hwarnings, hinfos, hscore, Option.bind_eq_bind, Option.bind_some]

end Summary

namespace Remark

/-- The object of a remark states its gravity, its description and its suggestion. -/
theorem states_toJson (r : Remark) : States r.toJson
    [("severity", some (.text r.gravity.name)), ("description", some (.text r.description)),
      ("suggestion", some (.text r.suggestion))] :=
  ⟨by simp, rfl⟩

/-- A gravity is read back from the list of their names. -/
theorem named?_gravity (g : Gravity) :
    named? [.critical, .major, .minor] Gravity.name (.text g.name) = some g :=
  named?_name (by decide) (by cases g <;> decide)

/-- A remark is read back from its object. -/
theorem ofJson?_toJson (r : Remark) : ofJson? r.toJson = some r := by
  have h := r.states_toJson
  have hgravity : r.toJson.field? "severity" (named? [.critical, .major, .minor] Gravity.name) =
      some r.gravity := h.field? (by simp) (named?_gravity _)
  have hdescription : r.toJson.field? "description" text? = some r.description :=
    h.field? (by simp) (text?_text _)
  have hsuggestion : r.toJson.field? "suggestion" text? = some r.suggestion :=
    h.field? (by simp) (text?_text _)
  simp only [ofJson?, hgravity, hdescription, hsuggestion, Option.bind_eq_bind, Option.bind_some]

end Remark

namespace Assessment

/-- The object of an assessment states all that the assessment holds. -/
theorem states_toJson (a : Assessment) : States a.toJson
    [("alignment", a.alignment.map .text), ("score", a.score.map .nat),
      ("purposeAlignmentNote", some (.text a.purposeNote)),
      ("implementationQualityNote", some (.text a.qualityNote)),
      ("issues", some (.array (a.issues.map Remark.toJson))),
      ("suggestions", some (.texts a.suggestions))] :=
  ⟨by simp, by simp [toJson, present, JsonValue.optional]⟩

/-- An assessment can be written. -/
theorem isWritable_toJson (a : Assessment) : IsWritable a.toJson := by
  apply a.states_toJson.isWritable
  simp only [List.forall_mem_cons]
  exact ⟨isWritable_map (fun _ => .string _) _, isWritable_map isWritable_nat _,
    isWritable_some (.string _), isWritable_some (.string _),
    isWritable_some (isWritable_array isWritable_remark _), isWritable_some (isWritable_texts _),
    by simp⟩

/-- An assessment is read back from its object. -/
theorem ofJson?_toJson (a : Assessment) : ofJson? a.toJson = some a := by
  have h := a.states_toJson
  have halignment : a.toJson.optionalField? "alignment" text? = some a.alignment :=
    h.optionalField? (by simp) text?_text
  have hscore : a.toJson.optionalField? "score" nat? = some a.score :=
    h.optionalField? (by simp) nat?_nat
  have hpurpose : a.toJson.field? "purposeAlignmentNote" text? = some a.purposeNote :=
    h.field? (by simp) (text?_text _)
  have hquality : a.toJson.field? "implementationQualityNote" text? = some a.qualityNote :=
    h.field? (by simp) (text?_text _)
  have hissues : a.toJson.field? "issues" (list? Remark.ofJson?) = some a.issues :=
    h.field? (by simp) (list?_map Remark.ofJson?_toJson _)
  have hsuggestions : a.toJson.field? "suggestions" (list? text?) = some a.suggestions :=
    h.field? (by simp) (list?_text?_texts _)
  simp only [ofJson?, halignment, hscore, hpurpose, hquality, hissues, hsuggestions,
    Option.bind_eq_bind, Option.bind_some]

end Assessment

namespace Report

/-- The object of a report states all that the report holds. -/
theorem states_toJson (r : Report) : States r.toJson
    [("conceptName", some (.text r.conceptName)), ("specFile", some (.text r.specFile)),
      ("implementationFile", some (.text r.implementationFile)),
      ("relatedFiles", some (.texts r.relatedFiles)),
      ("issues", some (.array (r.issues.map Issue.toJson))), ("summary", some r.summary.toJson),
      ("assessment", r.assessment.map Assessment.toJson)] :=
  ⟨by simp, by simp [toJson, present, JsonValue.optional]⟩

/-- A report can be written. -/
theorem isWritable_toJson (r : Report) : IsWritable r.toJson := by
  apply r.states_toJson.isWritable
  simp only [List.forall_mem_cons]
  exact ⟨isWritable_some (.string _), isWritable_some (.string _), isWritable_some (.string _),
    isWritable_some (isWritable_texts _),
    isWritable_some (isWritable_array Issue.isWritable_toJson _),
    isWritable_some (Summary.isWritable_toJson _), isWritable_map Assessment.isWritable_toJson _,
    by simp⟩

/-- A report is read back from its object. -/
theorem ofJson?_toJson (r : Report) : ofJson? r.toJson = some r := by
  have h := r.states_toJson
  have hname : r.toJson.field? "conceptName" text? = some r.conceptName :=
    h.field? (by simp) (text?_text _)
  have hspec : r.toJson.field? "specFile" text? = some r.specFile :=
    h.field? (by simp) (text?_text _)
  have himplementation : r.toJson.field? "implementationFile" text? = some r.implementationFile :=
    h.field? (by simp) (text?_text _)
  have hrelated : r.toJson.field? "relatedFiles" (list? text?) = some r.relatedFiles :=
    h.field? (by simp) (list?_text?_texts _)
  have hissues : r.toJson.field? "issues" (list? Issue.ofJson?) = some r.issues :=
    h.field? (by simp) (list?_map Issue.ofJson?_toJson _)
  have hsummary : r.toJson.field? "summary" Summary.ofJson? = some r.summary :=
    h.field? (by simp) (Summary.ofJson?_toJson _)
  have hassessment : r.toJson.optionalField? "assessment" Assessment.ofJson? = some r.assessment :=
    h.optionalField? (by simp) Assessment.ofJson?_toJson
  simp only [ofJson?, hname, hspec, himplementation, hrelated, hissues, hsummary, hassessment,
    Option.bind_eq_bind, Option.bind_some]

/-! ## The document -/

/-- The average is a numeral. -/
theorem isNumeral_average (s : Statistics) : IsNumeral s.averageNumeral :=
  ⟨(isNumeral_ofNat _).whole, Or.inr (isDigits_ofNat _), by rintro power ⟨⟩⟩

/-- The document for reports, as a value. -/
def document (time : Text) (reports : List Report) : JsonValue :=
  record
    [("timestamp", .text time), ("summary", (Statistics.ofReports reports).toJson),
      ("reports", .array (reports.map toJson))]

/-- The exported document states the time, the statistics and the reports. -/
theorem states_document (time : Text) (reports : List Report) : States (document time reports)
    [("timestamp", some (.text time)), ("summary", some (Statistics.ofReports reports).toJson),
      ("reports", some (.array (reports.map toJson)))] :=
  ⟨by simp, rfl⟩

/-- The exported document can be written. -/
theorem isWritable_document (time : Text) (reports : List Report) :
    IsWritable (document time reports) := by
  have htotals : IsWritable (Statistics.ofReports reports).toJson := by
    apply isWritable_record
    simp only [List.forall_mem_cons]
    exact ⟨isWritable_nat _, isWritable_nat _, isWritable_nat _, .number (isNumeral_average _),
      by simp⟩
  apply (states_document time reports).isWritable
  simp only [List.forall_mem_cons]
  exact ⟨isWritable_some (.string _), isWritable_some htotals,
    isWritable_some (isWritable_array isWritable_toJson _), by simp⟩

/-- Reports are read back from the exported text. -/
theorem readReports?_exported (time : Text) (reports : List Report) :
    readReports? (exported time reports) = some reports := by
  have hread : JsonValue.read? (exported time reports) = some (document time reports) :=
    read?_write (isWritable_document time reports)
  rw [readReports?, hread, Option.bind_some]
  exact (states_document time reports).field? (by simp) (list?_map ofJson?_toJson reports)

/-- The text of reports tells which reports they are. -/
theorem reportsText_injective : Function.Injective reportsText := by
  intro reports others htext
  have hread (reports : List Report) :
      JsonValue.read? (reportsText reports) = some (.array (reports.map toJson)) :=
    read?_eq_some_iff.mpr (spells_writeAt (isWritable_array isWritable_toJson _) 1).element_of_value
  have hvalue := (hread reports).symm.trans (htext ▸ hread others)
  have hreports := list?_map ofJson?_toJson reports
  rw [Option.some.inj hvalue, list?_map ofJson?_toJson others] at hreports
  exact (Option.some.inj hreports).symm

/-- The text of the reports ends the document. -/
theorem exists_exported_eq (time : Text) (reports : List Report) :
    ∃ before, exported time reports =
      before ++ "\"reports\": " ++ reportsText reports ++ "\n\x7d" := by
  refine ⟨'\x7b' :: newLine 1 ++ writeString (some ("timestamp" : Text)) ++ ": " ++
    writeAt 1 (.text time) ++ ',' :: newLine 1 ++ writeString (some ("summary" : Text)) ++ ": " ++
    writeAt 1 (Statistics.ofReports reports).toJson ++ ',' :: newLine 1, ?_⟩
  simp only [exported, record, JsonValue.write, List.map_cons, List.map_nil, writeAt, writeMembers,
    reportsText, List.append_nil, List.append_assoc, List.cons_append]
  rfl

/-- Reports are exported without loss: what is read from the document are the reports that were
exported, and the part of it that holds them is that of no other reports. -/
theorem exported_reports_read_back (time : Text) (reports : List Report) :
    readReports? (exported time reports) = some reports ∧
    (∃ before, exported time reports =
      before ++ "\"reports\": " ++ reportsText reports ++ "\n\x7d") ∧
    ∀ others, reportsText others = reportsText reports → others = reports :=
  ⟨readReports?_exported time reports, exists_exported_eq time reports,
    fun _ h => reportsText_injective h⟩

/-- A report with one issue, which has the given suggestion. -/
def suggesting (suggestion : Option Text) : Report :=
  .ofIssues "Team" "specs/Team.concept" missingImplementation
    [{ severity := .error, category := .missingAction, message := "say \"why\"\n\x01",
       location := { file := "specs/Team.concept", column := some 0 }, suggestion := suggestion,
       related := some ⟨[], none, some []⟩ }]

/-- An empty suggestion is told from none. -/
theorem empty_suggestion_exported :
    readReports? (exported "now" [suggesting (some [])]) = some [suggesting (some [])] ∧
      reportsText [suggesting none] ≠ reportsText [suggesting (some [])] := by
  obtain ⟨hread, -, hsame⟩ := exported_reports_read_back "now" [suggesting (some [])]
  refine ⟨hread, fun htext => ?_⟩
  have hdifferent : [suggesting none] ≠ [suggesting (some [])] := by decide
  exact hdifferent (hsame _ htext)

end Report

end Concordance
