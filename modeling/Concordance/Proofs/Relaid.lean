import Concordance.Proofs.RoundTrip

set_option autoImplicit false

/-!
# Lines laid out anew

Two sequences of numbered lines say the same if one arises from the other by changing blanks at the
ends of lines and by putting lines in between that the reader passes over: blank lines, comments,
and `#` lines that are no headings where they stand (`Relaid`). Their marks, and the blocks that
these make up, then match one by one (`Relaid.marks`, `forall₂_blocks`), with other line numbers.
Every part is read from trimmed lines, and a line number is kept only by the operation that the line
declares. So reading gives the same specification, with its operations renumbered
(`Relaid.readLines`).
-/

namespace Concordance

open Text Outline

/-! ## Renumbering -/

/-- The operation with another line number. -/
def Operation.renumber (f : Nat → Nat) (op : Operation) : Operation := { op with line := f op.line }

namespace Specification

/-- The specification with other line numbers for its operations. -/
def renumber (f : Nat → Nat) (s : Specification) : Specification :=
  { s with actions := s.actions.map (Operation.renumber f)
           queries := s.queries.map (Operation.renumber f) }

/-- Renumbering that keeps every number changes nothing. -/
@[simp] theorem renumber_id (s : Specification) : s.renumber id = s := by
  have hid : Operation.renumber id = id := rfl
  unfold renumber
  rw [hid, List.map_id, List.map_id]

end Specification

/-! ## What matches -/

/-- A line says the same as another, under another number. -/
structure Line.Matches (f : Nat → Nat) (l l' : Line) : Prop where
  number : l'.number = f l.number
  text : trim l'.text = trim l.text

/-- A mark says the same as another. -/
inductive Mark.Matches (f : Nat → Nat) : Mark → Mark → Prop where
  | heading (h : Heading) (number : Nat) : Matches f (.heading h number) (.heading h (f number))
  | body {l l' : Line} (h : l.Matches f l') : Matches f (.body l) (.body l')

/-- A block says the same as another. -/
inductive Block.Matches (f : Nat → Nat) : Block → Block → Prop where
  | title (name : Text) : Matches f (.title name) (.title name)
  | content (part : Part) {ls ls' : List Line} (h : List.Forall₂ (Line.Matches f) ls ls') :
      Matches f (.content part ls) (.content part ls')

variable {f : Nat → Nat}

namespace Outline

/-- A line that is passed over: a blank line, a comment, or a `#` line that is no heading in a
document that has its title already, or not yet. -/
def IsFiller (titled : Bool) (line : Text) : Prop :=
  trim line = [] ∨ startsWith "//" (trim line) = true ∨
    startsWith "#" (trim line) = true ∧ heading? titled (trim line) = none

instance (titled : Bool) (line : Text) : Decidable (IsFiller titled line) :=
  inferInstanceAs (Decidable (_ ∨ _))

/-- The second lines are the first ones, with other numbers and with lines in between that are
passed over. -/
inductive Relaid (f : Nat → Nat) : (titled : Bool) → List Line → List Line → Prop where
  | nil (titled : Bool) : Relaid f titled [] []
  | filler {titled : Bool} {l : Line} {ls ls' : List Line} (h : IsFiller titled l.text)
      (rest : Relaid f titled ls ls') : Relaid f titled ls (l :: ls')
  | line {titled : Bool} {l l' : Line} {ls ls' : List Line} (h : l.Matches f l')
      (rest : Relaid f (titledAfter titled l.text) ls ls') : Relaid f titled (l :: ls) (l' :: ls')

/-! ## Lines that are passed over -/

/-- A line that starts with a slash is no heading. -/
theorem parse?_slash (rest : Text) : Heading.parse? ('/' :: rest) = none := by
  have htext : trim (trimStartOf (· = '#') ('/' :: rest)) = '/' :: trimEnd rest := by
    rw [trimStartOf_cons_of_neg (by decide), trim_cons_of_neg (by decide)]
  have hfolded : lower ('/' :: trimEnd rest) = '/' :: lowerFrom ['/'] (trimEnd rest) := rfl
  have hname : ∀ t, trim (trimEndOf (· = ':') ('/' :: t)) =
      '/' :: trimEnd (trimEndOf (· = ':') t) := by
    intro t
    rw [trimEndOf_cons_of_neg (by decide), trim_cons_of_neg (by decide)]
  unfold Heading.parse?
  simp only [htext, hfolded, hname]
  simp [startsWith, after?, Heading.part?, Heading.inlined?]

/-- A line that begins with slashes is no heading. -/
theorem heading?_of_slashes {titled : Bool} {t : Text} (h : startsWith "//" t = true) :
    heading? titled t = none := by
  obtain ⟨rest, rfl⟩ := startsWith_iff.mp h
  have hparse : Heading.parse? (("//" : Text) ++ rest) = none := parse?_slash ('/' :: rest)
  unfold heading?
  rw [hparse]
  rfl

/-- A filler has no mark. -/
theorem marks_cons_of_isFiller {titled : Bool} {l : Line} (h : IsFiller titled l.text)
    (rest : List Line) : marks titled (l :: rest) = marks titled rest := by
  rcases h with hblank | hslashes | ⟨hhash, hheading⟩
  · exact marks_cons_blank hblank
  · exact marks_cons_comment (heading?_of_slashes hslashes)
      (by rw [isComment, hslashes, Bool.or_true])
  · exact marks_cons_comment hheading (by rw [isComment, hhash, Bool.true_or])

/-! ## Marks and blocks -/

/-- Documents that are laid out anew have the same marks, but for the line numbers. -/
theorem Relaid.marks {titled : Bool} {ls ls' : List Line} (h : Relaid f titled ls ls') :
    List.Forall₂ (Mark.Matches f) (marks titled ls) (marks titled ls') := by
  induction h with
  | nil titled => exact .nil
  | filler h _ ih =>
    rw [marks_cons_of_isFiller h]
    exact ih
  | @line titled l l' ls ls' h _ ih =>
    -- Both lines have the same trimmed text, which alone decides on the mark.
    by_cases htext : trim l.text = []
    · rw [titledAfter_of_none (by simp [htext])] at ih
      rw [marks_cons_blank htext, marks_cons_blank (h.text.trans htext)]
      exact ih
    · cases hh : heading? titled (trim l.text) with
      | some heading =>
        rw [titledAfter_of_heading hh] at ih
        rw [marks_cons_heading hh, marks_cons_heading (by rw [h.text, hh]), h.number]
        exact .cons (.heading heading l.number) ih
      | none =>
        rw [titledAfter_of_none hh] at ih
        cases hcomment : isComment (trim l.text) with
        | true =>
          rw [marks_cons_comment hh hcomment,
            marks_cons_comment (by rw [h.text, hh]) (by rw [h.text, hcomment])]
          exact ih
        | false =>
          rw [marks_cons_body htext hh hcomment,
            marks_cons_body (by rw [h.text]; exact htext) (by rw [h.text, hh])
              (by rw [h.text, hcomment])]
          exact .cons (.body h) ih

/-- The lines before the first heading match. -/
theorem forall₂_bodyLines {ms ms' : List Mark} (h : List.Forall₂ (Mark.Matches f) ms ms') :
    List.Forall₂ (Line.Matches f) (bodyLines ms) (bodyLines ms') := by
  induction h with
  | nil => exact .nil
  | cons hm _ ih =>
    cases hm with
    | heading h number => exact .nil
    | body hl => exact .cons hl ih

/-- The blocks match. -/
theorem forall₂_blocks {ms ms' : List Mark} (h : List.Forall₂ (Mark.Matches f) ms ms') :
    List.Forall₂ (Block.Matches f) (blocks ms) (blocks ms') := by
  induction h with
  | nil => exact .nil
  | cons hm hrest ih =>
    cases hm with
    | body hl => exact ih
    | heading heading number =>
      cases heading with
      | title name => exact .cons (.title name) ih
      | opens part inlined =>
        refine .cons (.content part ?_) ih
        cases inlined with
        | none => exact forall₂_bodyLines hrest
        | some text => exact .cons ⟨rfl, rfl⟩ (forall₂_bodyLines hrest)

end Outline

/-! ## Parts -/

namespace Specification

section Parts

variable {ls ls' : List Line}

/-- Prose does not depend on line numbers. -/
theorem prose_of_forall₂ (h : List.Forall₂ (Line.Matches f) ls ls') : prose ls' = prose ls := by
  have htexts : (ls'.map fun l => trim l.text) = ls.map fun l => trim l.text := by
    induction h with
    | nil => rfl
    | cons hl _ ih => rw [List.map_cons, List.map_cons, hl.text, ih]
  unfold prose
  rw [htexts]

/-- The state does not depend on line numbers. -/
theorem readState_of_forall₂ (h : List.Forall₂ (Line.Matches f) ls ls') (owner : Text)
    (entity : Option Text) (state : Dict (Dict Text)) :
    readState owner entity state ls' = readState owner entity state ls := by
  induction h generalizing entity state with
  | nil => rfl
  | cons hl _ ih => simp only [readState, hl.text, ih]

/-- A remark does not depend on its line number. -/
theorem remark?_of_matches {l l' : Line} (h : l.Matches f l') : remark? l' = remark? l := by
  unfold remark?
  rw [h.text]

/-- Remarks do not depend on line numbers. -/
theorem remarks_of_forall₂ (h : List.Forall₂ (Line.Matches f) ls ls') :
    remarks ls' = remarks ls := by
  induction h with
  | nil => rfl
  | cons hl _ ih => simp only [remarks, remark?_of_matches hl, ih]

/-- A signature depends on its line number only in the one it is given. -/
theorem parse?_of_matches {l l' : Line} (h : l.Matches f l') :
    Signature.parse? (trim l'.text) l'.number =
      (Signature.parse? (trim l.text) l.number).map (Operation.renumber f) := by
  rw [h.text, h.number]
  cases hparse : Signature.parse? (trim l.text) l.number with
  | none =>
    cases hparse' : Signature.parse? (trim l.text) (f l.number) with
    | none => rfl
    | some op =>
      rw [parse?_renumber hparse' l.number] at hparse
      cases hparse
  | some op =>
    have hline : op.line = l.number := (line_of_parse? hparse).1
    rw [parse?_renumber hparse (f l.number), ← hline]
    rfl

/-- Operations depend on line numbers only in those they are given. -/
theorem readOperations_of_forall₂ (h : List.Forall₂ (Line.Matches f) ls ls') :
    readOperations ls' = (readOperations ls).map (Operation.renumber f) := by
  induction h with
  | nil => rfl
  | @cons l l' ls ls' hl hrest ih =>
    unfold readOperations
    rw [remark?_of_matches hl]
    cases remark? l with
    | some _ => exact ih
    | none =>
      rw [parse?_of_matches hl]
      cases Signature.parse? (trim l.text) l.number with
      | none => exact ih
      | some op =>
        simp only [Option.map_some, List.map_cons, ih, remarks_of_forall₂ hrest]
        rfl

end Parts

/-! ## The whole specification -/

/-- A block adds the same to a specification, but for the line numbers. -/
theorem addBlock_of_matches {b b' : Block} (h : b.Matches f b') (s : Specification) :
    addBlock (s.renumber f) b' = (addBlock s b).renumber f := by
  cases h with
  | title name => rfl
  | content part h =>
    cases part with
    | purpose => simp only [addBlock, renumber, prose_of_forall₂ h]
    | principle => simp only [addBlock, renumber, prose_of_forall₂ h]
    | state =>
      simp only [addBlock, readState_of_forall₂ h]
      rfl
    | actions => simp only [addBlock, renumber, readOperations_of_forall₂ h, List.map_append]
    | queries => simp only [addBlock, renumber, readOperations_of_forall₂ h, List.map_append]

/-- Blocks add the same to a specification, but for the line numbers. -/
theorem foldl_addBlock_of_forall₂ {bs bs' : List Block}
    (h : List.Forall₂ (Block.Matches f) bs bs') (s : Specification) :
    bs'.foldl addBlock (s.renumber f) = (bs.foldl addBlock s).renumber f := by
  induction h generalizing s with
  | nil => rfl
  | cons hb _ ih => rw [List.foldl_cons, List.foldl_cons, addBlock_of_matches hb, ih]

/-- The specification that numbered lines hold. -/
def readLines (ls : List Line) (path : Text) : Specification :=
  (blocks (marks false ls)).foldl addBlock (blank path)

end Specification

/-- Documents that are laid out anew are read alike, but for the line numbers. -/
theorem Outline.Relaid.readLines {ls ls' : List Line} (h : Relaid f false ls ls') (path : Text) :
    Specification.readLines ls' path = (Specification.readLines ls path).renumber f :=
  Specification.foldl_addBlock_of_forall₂ (forall₂_blocks h.marks) (Specification.blank path)

end Concordance
