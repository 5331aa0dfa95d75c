import Concordance.Proofs.Attribution
import Concordance.Proofs.Dictionaries
import Concordance.Proofs.Layout
import Mathlib.Data.List.Forall2

set_option autoImplicit false

/-!
# Printed specifications

A specification is printed as a document: its title, and then each part under its heading, with a
line for each entity, field, signature and description. Reading the document gives the specification
back, with operations at the lines on which they were printed, as long as its texts can stand in a
document at all (`Printable`). The outline of a printed document is made of its parts
(`ofText_print`), and each part is read back on its own.
-/

namespace Concordance

open Text Outline

/-- The heading of a part. -/
def Part.heading : Part → Text
  | purpose => "purpose"
  | state => "state"
  | actions => "actions"
  | queries => "queries"
  | principle => "operational principle"

/-- The parts in the order in which they are printed. -/
def Part.inOrder : List Part := [purpose, state, actions, queries, principle]

namespace Specification

/-- An entity and, below it, its fields. -/
def entityLines (entity : Text × Dict Text) : List Text :=
  entity.1 :: entity.2.entries.map fun field => field.1 ++ ": " ++ field.2

/-- A signature and, below it, the description if there is one. -/
def operationLines (op : Operation) : List Text :=
  op.signature :: if op.description = [] then [] else [("- " : Text) ++ op.description]

/-- The lines under the heading of a part. -/
def partLines (s : Specification) : Part → List Text
  | .purpose => [s.purpose]
  | .state => s.state.entries.flatMap entityLines
  | .actions => s.actions.flatMap operationLines
  | .queries => s.queries.flatMap operationLines
  | .principle => [s.principle]

/-- The lines of a printed specification. -/
def printedLines (s : Specification) : List Text :=
  (("concept " : Text) ++ s.name) ::
    Part.inOrder.flatMap fun part => part.heading :: s.partLines part

/-- A specification as a document. -/
def print (s : Specification) : Text := unlines s.printedLines

/-- A line is no comment and no heading of a part. A later title is none of these. -/
def IsPlain (line : Text) : Prop :=
  isComment (trim line) = false ∧ ∀ h ∈ Heading.parse? (trim line), h.isTitle = true

instance (line : Text) : Decidable (IsPlain line) := inferInstanceAs (Decidable (_ ∧ _))

/-- A text can stand before a colon, or on its own where a colon would make it a field. -/
def IsLabel (name : Text) : Prop :=
  trim name = name ∧ name ≠ [] ∧ ':' ∉ name ∧ name.head? ≠ some '-'

instance (name : Text) : Decidable (IsLabel name) := inferInstanceAs (Decidable (_ ∧ _))

/-- An operation is what its signature declares, and it is not taken for a remark. -/
def IsDeclared (op : Operation) : Prop :=
  trim op.signature = op.signature ∧ op.signature.head? ≠ some '-' ∧
    Signature.parse? op.signature op.line = some { op with description := [] }

instance (op : Operation) : Decidable (IsDeclared op) := inferInstanceAs (Decidable (_ ∧ _))

/-- A character that does not end the name in a title. -/
def isNameChar (c : Char) : Bool := !(isBlank c || c = '[' || c = '<' || c = ':')

/-- The texts of a specification can be told apart in a document. -/
structure Printable (s : Specification) : Prop where
  name_ne_nil : s.name ≠ []
  name_chars : ∀ c ∈ s.name, isNameChar c = true
  purpose : trim s.purpose = s.purpose
  principle : trim s.principle = s.principle
  entities : ∀ entity ∈ s.state.entries, IsLabel entity.1 ∧ entity.1.getLast? ≠ some '\x7b'
  fields : ∀ entity ∈ s.state.entries, ∀ field ∈ entity.2.entries,
    IsLabel field.1 ∧ trim field.2 = field.2
  operations : ∀ op ∈ s.actions ++ s.queries, IsDeclared op ∧ trim op.description = op.description
  oneLine : ∀ part, ∀ line ∈ s.partLines part, '\n' ∉ line
  plain : ∀ part, ∀ line ∈ s.partLines part, IsPlain line

/-! ## The outline of a printed document -/

/-- The first line has the first number. -/
@[simp, grind =] theorem numberedFrom_cons (n : Nat) (line : Text) (rest : List Text) :
    numberedFrom n (line :: rest) = ⟨n, line⟩ :: numberedFrom (n + 1) rest := rfl

/-- Later lines are numbered on. -/
@[simp, grind =] theorem numberedFrom_append (n : Nat) (ls ms : List Text) :
    numberedFrom n (ls ++ ms) = numberedFrom n ls ++ numberedFrom (n + ls.length) ms := by
  simp [numberedFrom]

/-- A line that holds something. -/
def isShown (line : Line) : Bool := !(trim line.text).isEmpty

/-- A plain line is no heading below a title. -/
theorem heading?_of_isPlain {line : Text} (h : IsPlain line) :
    heading? true (trim line) = none := by
  unfold heading?
  cases hparse : Heading.parse? (trim line) with
  | none => rfl
  | some heading =>
    have htitle : heading.isTitle = true := h.2 heading hparse
    simp [htitle]

/-- Plain lines are marked as body lines, but for the blank ones. -/
theorem marks_numberedFrom_append {body : List Text} (h : ∀ line ∈ body, IsPlain line) (n : Nat)
    (rest : List Line) :
    marks true (numberedFrom n body ++ rest) =
      ((numberedFrom n body).filter isShown).map .body ++ marks true rest := by
  induction body generalizing n with
  | nil => rfl
  | cons line body ih =>
    have hline := h line List.mem_cons_self
    have hbody := ih (fun l hl => h l (List.mem_cons_of_mem _ hl)) (n + 1)
    rw [numberedFrom_cons, List.cons_append]
    by_cases htext : trim line = []
    · rw [marks_cons_blank htext, hbody, List.filter_cons_of_neg (by simp [isShown, htext])]
    · rw [marks_cons_body htext (heading?_of_isPlain hline) hline.1, hbody,
        List.filter_cons_of_pos (by simp [isShown, htext])]
      rfl

/-- Body lines in front are the first ones of the body. -/
@[simp] theorem bodyLines_map_body_append (ls : List Line) (ms : List Mark) :
    bodyLines (ls.map .body ++ ms) = ls ++ bodyLines ms := by
  induction ls with
  | nil => rfl
  | cons l rest ih => simp [bodyLines, ih]

/-- Body lines in front belong to no block. -/
@[simp] theorem blocks_map_body_append (ls : List Line) (ms : List Mark) :
    blocks (ls.map .body ++ ms) = blocks ms := by
  induction ls with
  | nil => rfl
  | cons l rest ih => simp [blocks, ih]

/-- The blocks of parts that are printed one after the other. -/
def printedBlocks (s : Specification) : (n : Nat) → List Part → List Block
  | _, [] => []
  | n, part :: rest =>
    .content part ((numberedFrom (n + 1) (s.partLines part)).filter isShown) ::
      s.printedBlocks (n + 1 + (s.partLines part).length) rest

/-- The heading of a part is read as the one that opens it. -/
@[simp] theorem parse?_heading (part : Part) :
    Heading.parse? part.heading = some (.opens part none) := by
  cases part <;> decide +kernel

/-- The heading of a part has no blanks at its ends. -/
@[simp] theorem trim_heading (part : Part) : trim part.heading = part.heading := by
  cases part <;> decide

/-- The heading of a part opens it, with or without a title before it. -/
theorem heading?_heading (titled : Bool) (part : Part) :
    heading? titled (trim part.heading) = some (.opens part none) := by
  rw [trim_heading, heading?, parse?_heading]
  cases titled <;> rfl

/-- Parts that are printed one after the other are blocks one after the other, and no line stands
before the first of them. -/
theorem blocks_printed {s : Specification}
    (h : ∀ part, ∀ line ∈ s.partLines part, IsPlain line) (n : Nat) (parts : List Part) :
    let ms := marks true
      (numberedFrom n (parts.flatMap fun part => part.heading :: s.partLines part))
    blocks ms = s.printedBlocks n parts ∧ bodyLines ms = [] := by
  induction parts generalizing n with
  | nil => exact ⟨rfl, rfl⟩
  | cons part rest ih =>
    have hheading : heading? true (trim (Line.mk n part.heading).text) =
        some (.opens part none) := heading?_heading true part
    obtain ⟨hblocks, hlines⟩ := ih (n + 1 + (s.partLines part).length)
    have hnumbered : numberedFrom n
        ((part :: rest).flatMap fun part => part.heading :: s.partLines part) =
        ⟨n, part.heading⟩ :: (numberedFrom (n + 1) (s.partLines part) ++
          numberedFrom (n + 1 + (s.partLines part).length)
            (rest.flatMap fun part => part.heading :: s.partLines part)) := by
      simp
    intro ms
    have hms : ms = .heading (.opens part none) n ::
        (((numberedFrom (n + 1) (s.partLines part)).filter isShown).map .body ++
          marks true (numberedFrom (n + 1 + (s.partLines part).length)
            (rest.flatMap fun part => part.heading :: s.partLines part))) := by
      unfold ms
      rw [hnumbered, marks_cons_heading hheading, Bool.true_or, marks_numberedFrom_append (h part)]
    -- What follows starts with a heading or is empty, so that the lines of this part end there.
    exact ⟨by simp [hms, blocks, hblocks, hlines, printedBlocks], by rw [hms]; rfl⟩

/-- The lower case of a title begins with the word itself. -/
theorem lower_concept (name : Text) :
    lower (("concept " : Text) ++ name) =
      ("concept " : Text) ++ lowerFrom ("concept " : Text).reverse name := by
  rfl

section Title

variable {name : Text} (hne : name ≠ []) (hchars : ∀ c ∈ name, isNameChar c = true)

include hchars in
/-- A character of names is no blank. -/
theorem isBlank_eq_false_of_isNameChar : ∀ c ∈ name, isBlank c = false := by
  intro c hc
  have hchar := hchars c hc
  cases hblank : isBlank c with
  | false => rfl
  | true => simp [isNameChar, hblank] at hchar

include hne hchars

/-- A title line has no blanks at its ends. -/
theorem trim_title : trim (("concept " : Text) ++ name) = ("concept " : Text) ++ name := by
  apply trim_append (by decide) (by decide) hne
  apply trimEndOf_eq_self_of_getLast?
  intro c hc
  exact isBlank_eq_false_of_isNameChar hchars c (List.mem_of_getLast? hc)

/-- A title line is read as the title. -/
theorem parse?_title : Heading.parse? (("concept " : Text) ++ name) = some (.title name) := by
  have htext : trim (trimStartOf (· = '#') (("concept " : Text) ++ name)) =
      ("concept " : Text) ++ name := by
    rw [trimStartOf_append (by decide) (by decide), trim_title hne hchars]
  have hstart : startsWith "concept " (lower (("concept " : Text) ++ name)) = true :=
    startsWith_iff.mpr ⟨_, lower_concept name⟩
  have hname : trim name = name := trim_eq_self_of_forall (isBlank_eq_false_of_isNameChar hchars)
  have htitle : Heading.titleName ((("concept " : Text) ++ name).drop 8) = name := by
    have hdrop : (("concept " : Text) ++ name).drop 8 = name := rfl
    unfold Heading.titleName
    rw [hdrop, hname, List.takeWhile_eq_self_iff]
    intro c hc
    have hchar := hchars c hc
    simpa [isNameChar] using hchar
  unfold Heading.parse?
  simp only [htext, hstart, if_true, htitle]
  rw [if_neg (by simpa using hne)]

/-- The first title line of a document is its title. -/
theorem heading?_title :
    heading? false (trim (("concept " : Text) ++ name)) = some (.title name) := by
  rw [trim_title hne hchars, heading?, parse?_title hne hchars]
  rfl

end Title

/-! ## The lines of a printed document -/

/-- A text without blanks at its end does not end with a carriage return. -/
theorem getLast?_ne_return_of_trimEnd {t : Text} (h : trimEnd t = t) : t.getLast? ≠ some '\r' := by
  intro hlast
  have hblank := isBlank_getLast?_of_trimEnd h hlast
  revert hblank
  decide

/-- A field line does not end with a carriage return. -/
theorem getLast?_ne_return_of_field {name type : Text} (h : trim type = type) :
    (name ++ ": " ++ type).getLast? ≠ some '\r' := by
  cases type with
  | nil => simp
  | cons c rest =>
    rw [List.getLast?_append_of_ne_nil _ (by simp)]
    exact getLast?_ne_return_of_trimEnd (trimEnd_eq_self_of_trim h)

/-- No line of an operation ends with a carriage return. -/
theorem getLast?_ne_return_of_mem_operationLines {op : Operation} {line : Text}
    (hsignature : trim op.signature = op.signature)
    (hdescription : trim op.description = op.description)
    (hline : line ∈ operationLines op) : line.getLast? ≠ some '\r' := by
  unfold operationLines at hline
  rcases List.mem_cons.mp hline with rfl | hline
  · exact getLast?_ne_return_of_trimEnd (trimEnd_eq_self_of_trim hsignature)
  · split at hline
    · simp at hline
    · next hne =>
      obtain rfl := List.mem_singleton.mp hline
      rw [List.getLast?_append_of_ne_nil _ hne]
      exact getLast?_ne_return_of_trimEnd (trimEnd_eq_self_of_trim hdescription)

/-- No line of a printable specification ends with a carriage return. -/
theorem Printable.getLast?_ne_return {s : Specification} (h : s.Printable) (part : Part) :
    ∀ line ∈ s.partLines part, line.getLast? ≠ some '\r' := by
  intro line hline
  cases part with
  | purpose =>
    obtain rfl := List.mem_singleton.mp hline
    exact getLast?_ne_return_of_trimEnd (trimEnd_eq_self_of_trim h.purpose)
  | principle =>
    obtain rfl := List.mem_singleton.mp hline
    exact getLast?_ne_return_of_trimEnd (trimEnd_eq_self_of_trim h.principle)
  | state =>
    obtain ⟨entity, hentity, hline⟩ := List.mem_flatMap.mp hline
    rcases List.mem_cons.mp hline with rfl | hline
    · obtain ⟨⟨htrim, -⟩, -⟩ := h.entities entity hentity
      exact getLast?_ne_return_of_trimEnd (trimEnd_eq_self_of_trim htrim)
    · obtain ⟨field, hfield, rfl⟩ := List.mem_map.mp hline
      exact getLast?_ne_return_of_field (h.fields entity hentity field hfield).2
  | actions =>
    obtain ⟨op, hop, hline⟩ := List.mem_flatMap.mp hline
    obtain ⟨⟨hsignature, -⟩, hdescription⟩ := h.operations op (List.mem_append_left _ hop)
    exact getLast?_ne_return_of_mem_operationLines hsignature hdescription hline
  | queries =>
    obtain ⟨op, hop, hline⟩ := List.mem_flatMap.mp hline
    obtain ⟨⟨hsignature, -⟩, hdescription⟩ := h.operations op (List.mem_append_right _ hop)
    exact getLast?_ne_return_of_mem_operationLines hsignature hdescription hline

/-- The heading of a part is one line. -/
theorem heading_ends (part : Part) : '\n' ∉ part.heading ∧ part.heading.getLast? ≠ some '\r' := by
  cases part <;> decide

/-- The lines of a printed specification are those it is printed with. -/
theorem lines_print {s : Specification} (h : s.Printable) : lines s.print = s.printedLines := by
  have hfeed : '\n' ∉ s.name := by
    intro hmem
    exact absurd (isBlank_eq_false_of_isNameChar h.name_chars _ hmem) (by decide)
  apply lines_unlines
  · intro line hline
    rcases List.mem_cons.mp hline with rfl | hline
    · rw [List.mem_append]
      exact not_or.mpr ⟨by decide, hfeed⟩
    · obtain ⟨part, -, hline⟩ := List.mem_flatMap.mp hline
      rcases List.mem_cons.mp hline with rfl | hline
      · exact (heading_ends part).1
      · exact h.oneLine part line hline
  · intro line hline
    rcases List.mem_cons.mp hline with rfl | hline
    · exact getLast?_ne_return_of_trimEnd
        (trimEnd_eq_self_of_trim (trim_title h.name_ne_nil h.name_chars))
    · obtain ⟨part, -, hline⟩ := List.mem_flatMap.mp hline
      rcases List.mem_cons.mp hline with rfl | hline
      · exact (heading_ends part).2
      · exact h.getLast?_ne_return part line hline

/-- The outline of a printed specification is its title and its parts. -/
theorem ofText_print {s : Specification} (h : s.Printable) :
    ofText s.print = .title s.name :: s.printedBlocks 2 Part.inOrder := by
  have hheading : heading? false (trim (Line.mk 1 (("concept " : Text) ++ s.name)).text) =
      some (.title s.name) := heading?_title h.name_ne_nil h.name_chars
  have hnumbered : numbered s.print = ⟨1, ("concept " : Text) ++ s.name⟩ ::
      numberedFrom 2 (Part.inOrder.flatMap fun part => part.heading :: s.partLines part) := by
    unfold numbered
    rw [lines_print h]
    rfl
  unfold ofText
  rw [hnumbered, marks_cons_heading hheading]
  exact congrArg (Block.title s.name :: ·) (blocks_printed h.plain 2 Part.inOrder).1

/-- A document of nothing but a title gives a specification of nothing but a name. -/
theorem read_title {name : Text} (hne : name ≠ []) (hchars : ∀ c ∈ name, isNameChar c = true)
    (path : Text) :
    Specification.read (unlines [("concept " : Text) ++ name]) path =
      { blank path with name := name } := by
  have hreturn : (("concept " : Text) ++ name).getLast? ≠ some '\r' :=
    getLast?_ne_return_of_trimEnd (trimEnd_eq_self_of_trim (trim_title hne hchars))
  have hfeed : '\n' ∉ ("concept " : Text) ++ name := by
    rw [List.mem_append, not_or]
    refine ⟨by decide, fun hname => ?_⟩
    have hblank := isBlank_eq_false_of_isNameChar hchars '\n' hname
    revert hblank
    decide
  have hheading : heading? false (trim (Line.mk 1 (("concept " : Text) ++ name)).text) =
      some (.title name) := heading?_title hne hchars
  have hnumbered : numbered (unlines [("concept " : Text) ++ name]) =
      [⟨1, ("concept " : Text) ++ name⟩] := by
    unfold numbered
    rw [lines_unlines (by simpa using hfeed) (by simpa using hreturn)]
    rfl
  unfold Specification.read ofText
  rw [hnumbered, marks_cons_heading hheading]
  rfl

end Specification

end Concordance
