import Concordance.Proofs.Lists
import Concordance.Report.Page

set_option autoImplicit false

/-!
# Reported text does not become markup

The markup of a page is the sequence of its angle brackets and double quotes; these decide where
its tags and attributes begin and end. Escaped text has none of them (`markup_escape`), so the
markup of a page is that of its fixed parts. Which of these there are depends on the number of
reports, issues, files and suggestions and on which texts are empty, but not on what the others say.
Reports that agree in this (`Report.Retexts`) therefore have pages with one and the same markup.
-/

namespace Concordance

/-! ## Reports with other texts -/

/-- A text in the place of another: both are empty or neither is. -/
def Text.Retexts (t u : Text) : Prop := t = [] ↔ u = []

instance (t u : Text) : Decidable (t.Retexts u) := inferInstanceAs (Decidable (_ ↔ _))

/-- An issue with other texts. -/
structure Issue.Retexts (i j : Issue) : Prop where
  severity : i.severity = j.severity
  category : i.category = j.category
  message : i.message.Retexts j.message
  description : i.description.Retexts j.description
  file : i.location.file.Retexts j.location.file
  line : i.location.line = j.location.line
  column : i.location.column = j.location.column
  suggestion : Option.Rel Text.Retexts i.suggestion j.suggestion

/-- An assessment with other texts. The page does not show its remarks, which may be any. -/
structure Assessment.Retexts (a b : Assessment) : Prop where
  alignment : Option.Rel Text.Retexts a.alignment b.alignment
  score : a.score = b.score
  purposeNote : a.purposeNote.Retexts b.purposeNote
  qualityNote : a.qualityNote.Retexts b.qualityNote
  suggestions : List.Forall₂ Text.Retexts a.suggestions b.suggestions

/-- A report with other texts. -/
structure Report.Retexts (r q : Report) : Prop where
  conceptName : r.conceptName.Retexts q.conceptName
  specFile : r.specFile.Retexts q.specFile
  implementationFile : r.implementationFile.Retexts q.implementationFile
  relatedFiles : List.Forall₂ Text.Retexts r.relatedFiles q.relatedFiles
  issues : List.Forall₂ Issue.Retexts r.issues q.issues
  summary : r.summary = q.summary
  assessment : Option.Rel Assessment.Retexts r.assessment q.assessment

/-- Texts that stand for one another are empty together. -/
theorem Text.Retexts.isEmpty_eq {t u : Text} (h : t.Retexts u) : t.isEmpty = u.isEmpty := by
  rw [Bool.eq_iff_iff, List.isEmpty_iff, List.isEmpty_iff]
  exact h

/-- A group of issues with other texts. -/
structure IssueGroup.Retexts (g h : IssueGroup) : Prop where
  severity : g.severity = h.severity
  issues : List.Forall₂ Issue.Retexts g.issues h.issues

/-- Severities stay, and with them the groups. -/
theorem Report.Retexts.groups {r q : Report} (h : r.Retexts q) :
    List.Forall₂ IssueGroup.Retexts r.groups q.groups := by
  have hgroup : ∀ s : Severity,
      IssueGroup.Retexts ⟨s, r.issues.filter fun i => i.severity = s⟩
        ⟨s, q.issues.filter fun i => i.severity = s⟩ := by
    intro s
    refine ⟨rfl, List.rel_filter ?_ h.issues⟩
    intro i j hij
    simp only [hij.severity]
  refine List.rel_filter ?_ ?_
  · intro g g' hg
    simp only [isEmpty_eq_of_forall₂ hg.issues]
  · rw [List.forall₂_map_left_iff, List.forall₂_map_right_iff, List.forall₂_same]
    exact fun s _ => hgroup s

namespace Page

open Text

/-! ## The markup of texts put together -/

/-- The characters that begin and end tags and attributes. -/
def isMarkup (c : Char) : Bool := c = '<' || c = '>' || c = '"'

/-- The markup of a text. -/
def markup (t : Text) : Text := t.filter isMarkup

/-- The markup of a text is put together from its pieces. -/
@[simp, grind =] theorem markup_append (t u : Text) : markup (t ++ u) = markup t ++ markup u :=
  List.filter_append t u

/-- The markup of texts one after the other is put together from theirs. -/
@[simp] theorem markup_flatMap {α : Type} (l : List α) (f : α → Text) :
    markup (l.flatMap f) = l.flatMap fun a => markup (f a) :=
  List.filter_flatMap

/-- Every character is written without markup. -/
theorem markup_escapeChar (c : Char) : markup (escapeChar c) = [] := by
  by_cases hmarkup : isMarkup c = true
  · unfold isMarkup at hmarkup
    simp only [Bool.or_eq_true, decide_eq_true_eq] at hmarkup
    rcases hmarkup with (rfl | rfl) | rfl <;> decide
  · unfold escapeChar
    split_ifs
    case neg => simp [markup, hmarkup]
    all_goals decide

/-- An escaped text has no markup. -/
@[simp] theorem markup_escape (t : Text) : markup (escape t) = [] := by
  simp [escape, markup_escapeChar]

/-- A line end with its indentation has no markup. -/
@[simp] theorem markup_newLine (indent : Nat) : markup (newLine indent) = [] := by
  unfold markup newLine
  rw [List.filter_eq_nil_iff]
  intro c hc
  rcases List.mem_cons.mp hc with rfl | hc
  · decide
  · rw [List.eq_of_mem_replicate hc]
    decide

/-- The markup of an element is its tags around the markup of its content. -/
@[simp] theorem markup_element (tag attributes content : Text) :
    markup (element tag attributes content) =
      markup ("<" ++ tag ++ attributes ++ ">") ++ markup content ++
        markup ("</" ++ tag ++ ">") := by
  unfold element
  simp only [markup_append, List.append_assoc]

/-- The markup of a block is its tags around the markup of its lines. -/
@[simp] theorem markup_block (indent : Nat) (tag attributes : Text) (lines : List Text) :
    markup (block indent tag attributes lines) =
      markup ("<" ++ tag ++ attributes ++ ">") ++ lines.flatMap markup ++
        markup ("</" ++ tag ++ ">") := by
  simp [block]

/-- A part of a block has the markup of its content. -/
@[simp] theorem markup_part (indent : Nat) (content : Text) :
    markup (part indent content) = markup content := by
  simp [part]

/-- An escaped text at the end of a content adds no markup. -/
theorem markup_element_append_escape (tag attributes caption t : Text) :
    markup (element tag attributes (caption ++ escape t)) =
      markup (element tag attributes caption) := by
  simp

/-- An escaped text is as good as none for the markup of an element. -/
theorem markup_element_escape (tag attributes t : Text) :
    markup (element tag attributes (escape t)) = markup (element tag attributes []) :=
  markup_element_append_escape tag attributes [] t

/-! ## The same markup for other texts -/

/-- What is shown only with a text has the same markup for another one that stands for it. -/
theorem markup_onlyIf_congr {t u v w : Text} (h : t.Retexts u) (hmarkup : markup v = markup w) :
    markup (onlyIf (!t.isEmpty) v) = markup (onlyIf (!u.isEmpty) w) := by
  rw [h.isEmpty_eq]
  unfold onlyIf
  split
  · exact hmarkup
  · rfl

/-- An optional part has the same markup for values that stand for one another. -/
theorem markup_elim_congr {α : Type} {R : α → α → Prop} {o o' : Option α} {f : α → Text}
    (h : Option.Rel R o o') (hf : ∀ a b, R a b → markup (f a) = markup (f b)) :
    markup (o.elim [] f) = markup (o'.elim [] f) := by
  cases h with
  | none => rfl
  | some hab => exact hf _ _ hab

/-- Optional texts that stand for one another do so without the empty ones. -/
theorem rel_filter_nonempty {o o' : Option Text} (h : Option.Rel Text.Retexts o o') :
    Option.Rel Text.Retexts (o.filter fun t => !t.isEmpty) (o'.filter fun t => !t.isEmpty) := by
  cases h with
  | none => exact .none
  | some htu =>
    rw [Option.filter_some, Option.filter_some, htu.isEmpty_eq]
    split
    · exact .some htu
    · exact .none

/-- Lists of values that stand for one another have the same markup. -/
theorem markup_flatMap_congr {α : Type} {R : α → α → Prop} {l l' : List α} {f : α → Text}
    (h : List.Forall₂ R l l') (hf : ∀ a b, R a b → markup (f a) = markup (f b)) :
    markup (l.flatMap f) = markup (l'.flatMap f) := by
  induction h with
  | nil => rfl
  | cons hab _ ih =>
    rw [List.flatMap_cons, List.flatMap_cons, markup_append, markup_append, hf _ _ hab, ih]

/-- Issues that stand for one another have the same markup. -/
theorem markup_issue {i j : Issue} (h : i.Retexts j) : markup (issue i) = markup (issue j) := by
  have hdescription := markup_onlyIf_congr h.description
    (v := element "div" [] (escape i.description)) (w := element "div" [] (escape j.description))
    (by rw [markup_element_escape, markup_element_escape])
  have hsuggestion := markup_elim_congr (rel_filter_nonempty h.suggestion)
    (f := fun s => element "div" (ofClass "suggestion") ("Suggestion: " ++ escape s))
    (fun t u _ => by rw [markup_element_append_escape, markup_element_append_escape])
  unfold issue
  simp only [markup_part, markup_block, List.flatMap_cons, hdescription, hsuggestion,
    markup_append, markup_element_escape, markup_escape]

/-- Groups that stand for one another have the same markup. -/
theorem markup_group {g g' : IssueGroup} (h : g.Retexts g') :
    markup (group g) = markup (group g') := by
  unfold group
  rw [markup_part, markup_part, markup_block, markup_block, h.severity, h.issues.length_eq]
  simp only [List.flatMap_cons, markup_flatMap_congr h.issues fun i j => markup_issue]

/-- Lists of advice that stand for one another have the same markup. -/
theorem markup_advice {l l' : List Text} (h : List.Forall₂ Text.Retexts l l') :
    markup (advice l) = markup (advice l') := by
  have hitems := markup_flatMap_congr h
    (f := fun s => part 8 (element "li" [] (escape s)))
    (fun t u _ => by simp only [markup_part, markup_element_escape])
  unfold advice onlyIf
  rw [isEmpty_eq_of_forall₂ h]
  split
  · simp only [markup_part, markup_block, List.flatMap_cons, hitems]
  · rfl

/-- A note has the same markup for any text. -/
theorem markup_note (caption t u : Text) : markup (note caption t) = markup (note caption u) := by
  unfold note
  rw [markup_element_append_escape, markup_element_append_escape]

/-- Assessments that stand for one another have the same markup. -/
theorem markup_assessment {a b : Assessment} (h : a.Retexts b) :
    markup (assessment a) = markup (assessment b) := by
  have halignment := markup_elim_congr (rel_filter_nonempty h.alignment)
    (f := fun t => element "p" [] ("Alignment: " ++ escape t))
    (fun t u _ => by rw [markup_element_append_escape, markup_element_append_escape])
  have hquality := markup_onlyIf_congr h.qualityNote
    (v := part 6 (note "Implementation:" a.qualityNote))
    (w := part 6 (note "Implementation:" b.qualityNote))
    (by rw [markup_part, markup_part, markup_note])
  unfold assessment
  rw [markup_part, markup_part, markup_block, markup_block]
  simp only [List.flatMap_cons, halignment, h.score, hquality, markup_advice h.suggestions,
    markup_note "Purpose:" a.purposeNote b.purposeNote]

/-- The headings of reports that stand for one another have the same markup. -/
theorem markup_heading {r q : Report} (h : r.Retexts q) :
    markup (heading r) = markup (heading q) := by
  simp [heading, h.summary]

/-- The files of reports that stand for one another have the same markup. -/
theorem markup_files {r q : Report} (h : r.Retexts q) : markup (files r) = markup (files q) := by
  have hrelated := markup_flatMap_congr h.relatedFiles
    (f := fun f => part 6 (element "div" [] ("Related: " ++ escape f)))
    (fun t u _ => by simp only [markup_part, markup_element_append_escape])
  unfold files
  simp only [markup_block, List.flatMap_cons, hrelated, markup_element_append_escape]

/-- Reports that stand for one another have the same markup. -/
theorem markup_report {r q : Report} (h : r.Retexts q) :
    markup (report r) = markup (report q) := by
  have hclean : r.groups.isEmpty = q.groups.isEmpty := isEmpty_eq_of_forall₂ h.groups
  have hgroups : markup (r.groups.flatMap group) = markup (q.groups.flatMap group) :=
    markup_flatMap_congr h.groups fun g g' => markup_group
  have hassessment :
      markup (r.assessment.elim [] assessment) = markup (q.assessment.elim [] assessment) :=
    markup_elim_congr h.assessment fun a b => markup_assessment
  unfold report
  simp only [markup_part, markup_block, List.flatMap_cons, markup_append, markup_heading h,
    markup_files h, hclean, hgroups, hassessment]

/-- Reports that stand for one another have the same statistics. -/
theorem ofReports_eq_of_retexts {rs qs : List Report} (h : List.Forall₂ Report.Retexts rs qs) :
    Statistics.ofReports rs = Statistics.ofReports qs := by
  have hsummaries : rs.map Report.summary = qs.map Report.summary := by
    induction h with
    | nil => rfl
    | cons hr _ ih => rw [List.map_cons, List.map_cons, hr.summary, ih]
  have htotal : ∀ field : Summary → Nat,
      Statistics.total (fun r => field r.summary) rs =
        Statistics.total (fun r => field r.summary) qs := by
    intro field
    have hfield : (rs.map fun r => field r.summary) = qs.map fun r => field r.summary := by
      simpa only [List.map_map, Function.comp_def] using congrArg (List.map field) hsummaries
    unfold Statistics.total
    rw [hfield]
  unfold Statistics.ofReports
  rw [h.length_eq, htotal Summary.errorCount, htotal Summary.warningCount,
    htotal Summary.infoCount, htotal Summary.score]

/-- Whatever the texts of reports say, as long as the same of them are empty, their page has the
same angle brackets and double quotes in the same order. -/
theorem markup_render_of_retexts (time : Text) (rs qs : List Report)
    (h : List.Forall₂ Report.Retexts rs qs) :
    markup (render time rs) = markup (render time qs) := by
  have hreports : markup (rs.flatMap report) = markup (qs.flatMap report) :=
    markup_flatMap_congr h fun r q => markup_report
  unfold render
  simp only [markup_append, markup_element, markup_block, List.flatMap_cons,
    ofReports_eq_of_retexts h, hreports]

/-- A report that says the same text everywhere, with an issue and an assessment. -/
def reportSaying (t : Text) : Report :=
  { conceptName := t, specFile := t, implementationFile := t, relatedFiles := [t, t]
    issues :=
      [{ severity := .warning, category := .signatureMismatch, message := t, description := t
         location := { file := t, line := some 7 }, suggestion := some t }]
    summary := { errorCount := 0, warningCount := 1, infoCount := 0, score := 95 }
    assessment :=
      some { alignment := some t, purposeNote := t, qualityNote := t, suggestions := [t] } }

/-- A report that says a script everywhere has the markup of one that says a name. -/
theorem script_shown_as_text :
    List.Forall₂ Report.Retexts [reportSaying "Team"]
        [reportSaying "\"><script>alert('x')</script>"] ∧
      markup (render "2024-01-01T00:00:00Z" [reportSaying "Team"]) =
        markup (render "2024-01-01T00:00:00Z" [reportSaying "\"><script>alert('x')</script>"]) := by
  have htext : Text.Retexts "Team" "\"><script>alert('x')</script>" := by decide
  have hretexts : List.Forall₂ Report.Retexts [reportSaying "Team"]
      [reportSaying "\"><script>alert('x')</script>"] := by
    refine .cons ⟨htext, htext, htext, .cons htext (.cons htext .nil), .cons ?_ .nil, rfl, ?_⟩ .nil
    · exact ⟨rfl, rfl, htext, htext, htext, rfl, rfl, .some htext⟩
    · exact .some ⟨.some htext, rfl, htext, htext, .cons htext .nil⟩
  exact ⟨hretexts, markup_render_of_retexts _ _ _ hretexts⟩

end Page

end Concordance
