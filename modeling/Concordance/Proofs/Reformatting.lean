import Concordance.Proofs.Relaid

set_option autoImplicit false

/-!
# Reading does not depend on the layout of a document

The rows of a text are what stands between its line feeds. They are its lines but for carriage
returns at their ends and an empty row at the end of the text, both of which the reader passes over
(`read_eq_readLines_rows`). So a document may be laid out anew row by row: rows may be trimmed, line
feeds may get carriage returns, and blank lines and comments may be put between any two rows. Lines
put in between move the operations below them down by as many.
-/

namespace Concordance

namespace Text

variable {t : Text}

/-- What stands between the line feeds of a text. -/
def rows (t : Text) : List Text := t.splitOn '\n'

/-- The text with every line trimmed. -/
def trimLines (t : Text) : Text := joinWith ['\n'] ((rows t).map trim)

/-- The text with a carriage return before every line feed. -/
def withReturns (t : Text) : Text := t.flatMap fun c => if c = '\n' then ['\r', '\n'] else [c]

/-- Rows with others in between: `gaps i` before the row at position `i`, and after the last row
those at the next position. -/
def weave (gaps : Nat → List Text) : (i : Nat) → List Text → List Text
  | i, [] => gaps i
  | i, row :: rest => gaps i ++ row :: weave gaps (i + 1) rest

/-- The text with lines inserted. -/
def insertLines (gaps : Nat → List Text) (t : Text) : Text :=
  joinWith ['\n'] (weave gaps 0 (rows t))

/-- The number of a line after lines were inserted: it grows by the number of those before it. -/
def shifted (gaps : Nat → List Text) (n : Nat) : Nat :=
  n + ((List.range n).flatMap gaps).length

/-- Lines that are inserted before a line move all later ones. -/
@[simp] theorem shifted_succ (gaps : Nat → List Text) (n : Nat) :
    shifted gaps (n + 1) = shifted gaps n + (gaps n).length + 1 := by
  unfold shifted
  rw [List.range_succ, List.flatMap_append, List.length_append, List.flatMap_singleton]
  omega

/-! ## The rows of texts laid out anew -/

/-- Every text has a row. -/
theorem rows_ne_nil (t : Text) : rows t ≠ [] := List.splitOn_ne_nil '\n' t

/-- A character joins the first row, and a line feed starts another. -/
@[simp, grind =] theorem rows_cons (c : Char) (t : Text) :
    rows (c :: t) = if c = '\n' then [] :: rows t else (rows t).modifyHead (c :: ·) := by
  unfold rows
  rw [List.splitOn_cons_eq_if_modifyHead]
  simp only [beq_iff_eq]

/-- Rows that are joined by line feeds are the rows of the text. -/
theorem rows_joinWith {ls : List Text} (hne : ls ≠ []) (h : ∀ l ∈ ls, '\n' ∉ l) :
    rows (joinWith ['\n'] ls) = ls :=
  List.splitOn_intercalate '\n' h hne

/-- No row holds a line feed. -/
theorem feed_not_mem_of_mem_rows {row : Text} (h : row ∈ rows t) : '\n' ∉ row :=
  not_mem_of_mem_splitOn h

/-- Trimming the lines of a text trims its rows. -/
theorem rows_trimLines (t : Text) : rows (trimLines t) = (rows t).map trim := by
  apply rows_joinWith
  · rw [ne_eq, List.map_eq_nil_iff]
    exact rows_ne_nil t
  · intro l hl hmem
    obtain ⟨row, hrow, rfl⟩ := List.mem_map.mp hl
    exact feed_not_mem_of_mem_rows hrow (mem_of_mem_trim hmem)

/-- A line feed gets a carriage return before it. -/
theorem withReturns_feed (t : Text) : withReturns ('\n' :: t) = '\r' :: '\n' :: withReturns t := rfl

/-- Any other character is kept as it is. -/
theorem withReturns_cons {c : Char} (hc : c ≠ '\n') (t : Text) :
    withReturns (c :: t) = c :: withReturns t := by
  simp [withReturns, hc]

/-- Rows with a carriage return at the end of each but the last. -/
def endRows : List Text → List Text
  | [] => []
  | [last] => [last]
  | row :: next :: rest => (row ++ ['\r']) :: endRows (next :: rest)

/-- A row that another one follows gets a carriage return at its end. -/
theorem endRows_cons (row : Text) {rest : List Text} (h : rest ≠ []) :
    endRows (row :: rest) = (row ++ ['\r']) :: endRows rest := by
  cases rest with
  | nil => exact absurd rfl h
  | cons next rest => rfl

/-- A character in front of the rows is one in front of the ended rows. -/
theorem endRows_modifyHead (c : Char) (R : List Text) :
    endRows (R.modifyHead (c :: ·)) = (endRows R).modifyHead (c :: ·) := by
  cases R with
  | nil => rfl
  | cons row rest => cases rest <;> rfl

/-- A text with carriage returns has the same rows, ended by them. -/
theorem rows_withReturns (t : Text) : rows (withReturns t) = endRows (rows t) := by
  induction t with
  | nil => rfl
  | cons c t ih =>
    by_cases hc : c = '\n'
    · simp [hc, withReturns_feed, ih, endRows_cons _ (rows_ne_nil t)]
    · simp [withReturns_cons hc, hc, ih, endRows_modifyHead]

/-- An ended row is the row itself or has a carriage return behind it. -/
theorem forall₂_endRows (R : List Text) :
    List.Forall₂ (fun row row' => row' = row ∨ row' = row ++ ['\r']) R (endRows R) := by
  induction R using endRows.induct with
  | case1 => exact .nil
  | case2 last => exact .cons (Or.inl rfl) .nil
  | case3 row next rest ih => exact .cons (Or.inr rfl) ih

/-- Carriage returns before line feeds are at the ends of rows. -/
theorem forall₂_rows_withReturns (t : Text) :
    List.Forall₂ (fun row row' => row' = row ∨ row' = row ++ ['\r']) (rows t)
      (rows (withReturns t)) := by
  rw [rows_withReturns]
  exact forall₂_endRows (rows t)

/-- A line of a woven text is one of the text or of a gap. -/
theorem mem_weave {gaps : Nat → List Text} {i : Nat} {ls : List Text} {l : Text}
    (h : l ∈ weave gaps i ls) : l ∈ ls ∨ ∃ j, l ∈ gaps j := by
  induction ls generalizing i with
  | nil => exact Or.inr ⟨i, h⟩
  | cons row rest ih =>
    rw [weave, List.mem_append, List.mem_cons] at h
    rcases h with h | rfl | h
    · exact Or.inr ⟨i, h⟩
    · exact Or.inl List.mem_cons_self
    · exact (ih h).imp_left (List.mem_cons_of_mem row)

/-- Inserting lines weaves them into the rows. -/
theorem rows_insertLines {gaps : Nat → List Text} (h : ∀ i, ∀ l ∈ gaps i, '\n' ∉ l) (t : Text) :
    rows (insertLines gaps t) = weave gaps 0 (rows t) := by
  apply rows_joinWith
  · cases hrows : rows t with
    | nil => exact absurd hrows (rows_ne_nil t)
    | cons row rest => simp [weave]
  · intro l hl
    rcases mem_weave hl with hl | ⟨i, hl⟩
    · exact feed_not_mem_of_mem_rows hl
    · exact h i l hl

end Text

open Text

namespace Outline

variable {f : Nat → Nat} {titled : Bool}

/-- Lines are rows, but for what is passed over. -/
theorem relaid_closeLines (titled : Bool) (n : Nat) (R : List Text) :
    Relaid id titled (numberedFrom n (closeLines R)) (numberedFrom n R) := by
  induction R using closeLines.induct generalizing titled n with
  | case1 => exact .nil titled
  | case2 last hempty =>
    rw [closeLines, if_pos hempty, List.isEmpty_iff.mp hempty]
    exact .filler (Or.inl rfl) (.nil titled)
  | case3 last hempty =>
    rw [closeLines, if_neg hempty]
    exact .line ⟨rfl, rfl⟩ (.nil _)
  | case4 line next rest ih =>
    rw [closeLines]
    exact .line ⟨rfl, (trim_chopReturn line).symm⟩ (ih _ (n + 1))

/-- Rows with the same trimmed texts are laid out anew, with the same numbers. -/
theorem relaid_of_forall₂ {R R' : List Text}
    (h : List.Forall₂ (fun row row' => trim row' = trim row) R R') (titled : Bool) (n : Nat) :
    Relaid id titled (numberedFrom n R) (numberedFrom n R') := by
  induction h generalizing titled n with
  | nil => exact .nil titled
  | cons hrow _ ih => exact .line ⟨rfl, hrow⟩ (ih _ (n + 1))

/-- Fillers in front are laid out anew with what follows them. -/
theorem relaid_fillers {fillers : List Text} (h : ∀ l ∈ fillers, IsFiller titled l)
    {ls ls' : List Line} (rest : Relaid f titled ls ls') (n : Nat) :
    Relaid f titled ls (numberedFrom n fillers ++ ls') := by
  induction fillers generalizing n with
  | nil => exact rest
  | cons l fillers ih =>
    exact .filler (h l List.mem_cons_self)
      (ih (fun k hk => h k (List.mem_cons_of_mem l hk)) (n + 1))

/-- From each position on, inserted lines that are passed over only move the others down. -/
theorem relaid_weave {L : List Text} {gaps : Nat → List Text}
    (h : ∀ i, ∀ l ∈ gaps i, IsFiller (titledBefore L i) l) (i : Nat) :
    Relaid (shifted gaps) (titledBefore L i) (linesFrom L i)
      (numberedFrom (shifted gaps i + 1) (weave gaps i (L.drop i))) := by
  induction hleft : L.length - i generalizing i with
  | zero =>
    have hdrop : L.drop i = [] := List.drop_eq_nil_of_le (by omega)
    unfold linesFrom
    rw [hdrop, weave, ← List.append_nil (numberedFrom _ (gaps i))]
    exact relaid_fillers (h i) (.nil _) _
  | succ left ih =>
    have hi : i < L.length := by omega
    have hrest := ih (i + 1) (by omega)
    have hnumber : shifted gaps i + 1 + (gaps i).length = shifted gaps (i + 1) := by
      rw [shifted_succ]
      omega
    have hline : (lineAt L i).Matches (shifted gaps) ⟨shifted gaps (i + 1), L[i]⟩ := by
      refine ⟨rfl, ?_⟩
      rw [lineAt, List.getD_eq_getElem _ _ hi]
    have htitled : titledAfter (titledBefore L i) (lineAt L i).text = titledBefore L (i + 1) :=
      (titledBefore_succ L i).symm
    rw [← htitled] at hrest
    rw [linesFrom_of_lt hi, List.drop_eq_getElem_cons hi, weave,
      Specification.numberedFrom_append, Specification.numberedFrom_cons, hnumber]
    exact relaid_fillers (h i) (.line hline hrest) _

end Outline

open Outline

namespace Specification

/-- A document is read from its rows. -/
theorem read_eq_readLines_rows (document path : Text) :
    read document path = readLines (numberedFrom 1 (rows document)) path := by
  rw [(relaid_closeLines false 1 (rows document)).readLines path, renumber_id]
  rfl

/-- Documents whose rows have the same trimmed texts are read alike. -/
theorem read_eq_of_forall₂ {document document' : Text}
    (h : List.Forall₂ (fun row row' => trim row' = trim row) (rows document) (rows document'))
    (path : Text) : read document' path = read document path := by
  rw [read_eq_readLines_rows, read_eq_readLines_rows, (relaid_of_forall₂ h false 1).readLines path,
    renumber_id]

/-- A document is read alike with its lines trimmed, and with a carriage return before each line
feed. Lines that are passed over can be inserted anywhere between its lines. Only the line numbers
of the operations below then change, and each grows by the number of lines inserted before it. -/
theorem read_insensitive_to_layout (document path : Text) :
    read (trimLines document) path = read document path ∧
      read (withReturns document) path = read document path ∧
      ∀ gaps : Nat → List Text,
        (∀ i, ∀ line ∈ gaps i, '\n' ∉ line ∧ IsFiller (titledBefore (rows document) i) line) →
          read (insertLines gaps document) path =
            (read document path).renumber (shifted gaps) := by
  refine ⟨?_, ?_, ?_⟩
  · apply read_eq_of_forall₂
    rw [rows_trimLines, List.forall₂_map_right_iff, List.forall₂_same]
    exact fun row _ => trim_trim row
  · apply read_eq_of_forall₂
    refine (forall₂_rows_withReturns document).imp ?_
    rintro row row' (rfl | rfl)
    · rfl
    · exact trim_append_of_isBlank (by decide)
  · intro gaps hgaps
    have hrelaid := relaid_weave (fun i line hline => (hgaps i line hline).2) 0
    rw [read_eq_readLines_rows, read_eq_readLines_rows,
      rows_insertLines fun i line hline => (hgaps i line hline).1]
    exact hrelaid.readLines path

/-- A document with one action, on its third line. -/
def crewText : Text := "concept Crew\nactions\n  sign (name: Text) : Crew\n  - adds a member\n"

/-- A comment and a blank line before the action, and below it a line that would be a title if there
were none yet. -/
def crewNotes (i : Nat) : List Text :=
  if i = 2 then ["  // to be discussed", ""] else if i = 3 then ["# concept Guild"] else []

/-- Notes between the lines of a document move the line of its action and change nothing else. -/
theorem crew_read_with_notes :
    (∀ i, ∀ line ∈ crewNotes i,
        '\n' ∉ line ∧ IsFiller (titledBefore (rows crewText) i) line) ∧
      (read crewText "Crew.concept").actions.map Operation.line = [3] ∧
      (read (insertLines crewNotes crewText) "Crew.concept").actions.map Operation.line = [5] := by
  have hnotes : ∀ i, ∀ line ∈ crewNotes i,
      '\n' ∉ line ∧ IsFiller (titledBefore (rows crewText) i) line := by
    intro i
    by_cases hbefore : i = 2
    · subst hbefore
      decide +kernel
    by_cases hbelow : i = 3
    · subst hbelow
      decide +kernel
    · simp [crewNotes, hbefore, hbelow]
  refine ⟨hnotes, by decide +kernel, ?_⟩
  rw [(read_insensitive_to_layout crewText "Crew.concept").2.2 crewNotes hnotes]
  decide +kernel

end Specification

end Concordance
