import Concordance.Text.Blank
import Concordance.Text.Alphabetic

set_option autoImplicit false

/-!
# Lexemes of source text

The recognisers for declarations are put together from these: identifiers, keywords with the
blanks after them, sequences of modifiers, and a search over the beginnings of lines. A recogniser
takes the text from a position on and returns what is left of it.
-/

namespace Concordance.Lexeme

open Text

/-- The characters that an identifier starts with. -/
def startsIdentifier (c : Char) : Bool := c.isAlpha || c = '_' || c = '$'

/-- The characters that an identifier goes on with. -/
def inIdentifier (c : Char) : Bool := isWordChar c || c = '$'

/-- An identifier, as long as it goes. -/
def identifier? : Text → Option (Text × Text)
  | [] => none
  | c :: t =>
    if startsIdentifier c then some (c :: t.takeWhile inIdentifier, t.dropWhile inIdentifier)
    else none

/-- At least one blank, and all that follow. -/
def blanks? : Text → Option Text
  | [] => none
  | c :: t => if isBlank c then some (t.dropWhile isBlank) else none

/-- A keyword and the blanks that must follow it. -/
def keyword? (word t : Text) : Option Text := (after? word t).bind blanks?

/-- Passes over a keyword if it is there. -/
def skipKeyword (word t : Text) : Text := (keyword? word t).getD t

/-- The first of several keywords that is there. -/
def anyKeyword? (words : List Text) (t : Text) : Option Text :=
  words.findSome? fun word => keyword? word t

/-- What follows a text's beginning is no longer than the text. -/
theorem length_le_of_after? {lead t rest : Text} (h : after? lead t = some rest) :
    rest.length ≤ t.length := by
  induction lead generalizing t with
  | nil => simp only [after?, Option.some.injEq] at h; simp [h]
  | cons a lead ih =>
    cases t with
    | nil => simp [after?] at h
    | cons c t =>
      simp only [after?] at h
      split at h
      · exact Nat.le_succ_of_le (ih h)
      · exact absurd h (by simp)

/-- Blanks take something. -/
theorem length_lt_of_blanks? {t rest : Text} (h : blanks? t = some rest) :
    rest.length < t.length := by
  cases t with
  | nil => simp [blanks?] at h
  | cons c t =>
    simp only [blanks?] at h
    split at h
    · obtain rfl := Option.some.inj h
      exact Nat.lt_succ_of_le (List.dropWhile_sublist _).length_le
    · exact absurd h (by simp)

/-- A keyword takes something. -/
theorem length_lt_of_keyword? {word t rest : Text} (h : keyword? word t = some rest) :
    rest.length < t.length := by
  obtain ⟨u, hu, hb⟩ := Option.bind_eq_some_iff.mp h
  exact Nat.lt_of_lt_of_le (length_lt_of_blanks? hb) (length_le_of_after? hu)

/-- One of several keywords takes something. -/
theorem length_lt_of_anyKeyword? {words : List Text} {t rest : Text}
    (h : anyKeyword? words t = some rest) : rest.length < t.length := by
  obtain ⟨word, _, hw⟩ := List.exists_of_findSome?_eq_some h
  exact length_lt_of_keyword? hw

/-- Goes on with `next` after as many modifiers as possible, and with fewer where that fails. -/
def afterModifiers {α : Type} (modifiers : List Text) (next : Text → Option α) (t : Text) :
    Option α :=
  match _h : anyKeyword? modifiers t with
  | some rest => (afterModifiers modifiers next rest).or (next t)
  | none => next t
termination_by t.length
decreasing_by exact length_lt_of_anyKeyword? _h

/-- The first match at the beginning of a line. -/
def firstAtLineStart {α : Type} (m : Text → Option α) : (atStart : Bool) → Text → Option α
  | _, [] => none
  | atStart, c :: t =>
    (if atStart then m (c :: t) else none).or (firstAtLineStart m (c = '\n') t)

/-- The matches at beginnings of lines, from left to right without overlap. A match gives what it
found and what it leaves; `skip` characters belong to the last match. -/
def allAtLineStarts {α : Type} (m : Text → Option (α × Text)) :
    (atStart : Bool) → (skip : Nat) → Text → List α
  | _, _, [] => []
  | _, skip + 1, c :: t => allAtLineStarts m (c = '\n') skip t
  | atStart, 0, c :: t =>
    match if atStart then m (c :: t) else none with
    | some (a, rest) => a :: allAtLineStarts m (c = '\n') (t.length - rest.length) t
    | none => allAtLineStarts m (c = '\n') 0 t

end Concordance.Lexeme
