import Concordance.Proofs.Lists
import Concordance.Specification.Reader
import Mathlib.Data.List.GetD
import Mathlib.Tactic.ByContra

set_option autoImplicit false

/-!
# Where a line of a specification belongs

The reader of specifications goes through the lines of a document once, with a title and a part in
mind. Here a line is looked at by its position alone: whether it is a heading, an ordinary line or
neither depends on its text and on whether an earlier line is a title, and it stands under the last
heading before it. `marksFrom` is what the reader still has before it at a line, and
`marksFrom_induction` is the induction along its way to the end of the document.
-/

namespace Concordance

/-- The part that a heading opens. -/
def Heading.opened? : Heading → Option Part
  | title _ => none
  | opens part _ => some part

namespace Outline

open Text

/-- Lines with their numbers, of which `n` is the first. -/
def numberedFrom (n : Nat) (ls : List Text) : List Line :=
  (numberFrom n ls).map fun l => ⟨l.1, l.2⟩

/-! ## The mark of a line -/

section Marks

variable {titled : Bool} {line : Line} {rest : List Line}

/-- The empty text is no heading. -/
@[simp, grind =] theorem heading?_nil (titled : Bool) : heading? titled [] = none := by
  have hparse : Heading.parse? [] = none := by decide
  unfold heading?
  rw [hparse]
  rfl

/-- A blank line has no mark. -/
theorem marks_cons_blank (h : trim line.text = []) :
    marks titled (line :: rest) = marks titled rest := by
  simp [marks, h]

/-- A heading is marked with its number, and a title counts from there on. -/
theorem marks_cons_heading {h : Heading} (hh : heading? titled (trim line.text) = some h) :
    marks titled (line :: rest) =
      .heading h line.number :: marks (titled || h.isTitle) rest := by
  have htext : trim line.text ≠ [] := by
    intro htext
    simp [htext] at hh
  simp [marks, htext, hh]

/-- A comment has no mark. -/
theorem marks_cons_comment (hh : heading? titled (trim line.text) = none)
    (hcomment : isComment (trim line.text) = true) :
    marks titled (line :: rest) = marks titled rest := by
  simp [marks, hh, hcomment]

/-- Any other line is marked as a body line. -/
theorem marks_cons_body (htext : trim line.text ≠ []) (hh : heading? titled (trim line.text) = none)
    (hcomment : isComment (trim line.text) = false) :
    marks titled (line :: rest) = .body line :: marks titled rest := by
  simp [marks, htext, hh, hcomment]

/-- Whether a document has its title after a line. -/
def titledAfter (titled : Bool) (line : Text) : Bool :=
  titled || (Heading.parse? (trim line)).any Heading.isTitle

/-- A heading decides by itself whether it adds a title. -/
theorem titledAfter_of_heading {line : Text} {h : Heading}
    (hh : heading? titled (trim line) = some h) :
    titledAfter titled line = (titled || h.isTitle) := by
  have hparse := (Option.filter_eq_some_iff.mp hh).1
  unfold titledAfter
  rw [hparse]
  rfl

/-- A line that is no heading adds no title. -/
theorem titledAfter_of_none {line : Text} (hh : heading? titled (trim line) = none) :
    titledAfter titled line = titled := by
  unfold heading? at hh
  unfold titledAfter
  cases hparse : Heading.parse? (trim line) with
  | none => simp
  | some h =>
    rw [hparse] at hh
    simp at hh
    simp [hh]

end Marks

/-! ## Lines by position, counted from zero -/

/-- The trimmed text of a line. -/
def textAt (L : List Text) (i : Nat) : Text := trim (L.getD i [])

/-- Whether a line before the given one reads as a title. -/
def titledBefore (L : List Text) (i : Nat) : Bool :=
  (List.range i).any fun j => (Heading.parse? (textAt L j)).any Heading.isTitle

/-- The heading on a line. A line that reads as a title is a heading only if none before it does. -/
def headingAt? (L : List Text) (i : Nat) : Option Heading :=
  heading? (titledBefore L i) (textAt L i)

/-- A line opens a part. -/
def Opens (L : List Text) (part : Part) (i : Nat) : Prop :=
  (headingAt? L i).bind Heading.opened? = some part

/-- A line is neither blank nor a heading nor a comment. -/
def Ordinary (L : List Text) (i : Nat) : Prop :=
  textAt L i ≠ [] ∧ headingAt? L i = none ∧ isComment (textAt L i) = false

/-- A line starts with a dash. -/
def Dashed (L : List Text) (i : Nat) : Prop := startsWith "-" (textAt L i) = true

/-- A line is an ordinary one after another line, with no heading in between. -/
def Under (L : List Text) (j i : Nat) : Prop :=
  Ordinary L i ∧ j < i ∧ ∀ k < i, j < k → headingAt? L k = none

/-- A line is an ordinary one after a heading that opens a part, with no other in between. -/
def LiesIn (L : List Text) (part : Part) (i : Nat) : Prop :=
  ∃ j < i, Opens L part j ∧ Under L j i

variable {L : List Text} {part : Part} {i j : Nat}

instance : Decidable (Opens L part i) := inferInstanceAs (Decidable (_ = _))

instance : Decidable (Ordinary L i) := inferInstanceAs (Decidable (_ ∧ _))

instance : Decidable (Dashed L i) := inferInstanceAs (Decidable (_ = _))

instance : Decidable (Under L j i) := inferInstanceAs (Decidable (_ ∧ _))

instance : Decidable (LiesIn L part i) := inferInstanceAs (Decidable (∃ j < i, _))

/-- Behind the last line there is no text. -/
theorem textAt_of_length_le (h : L.length ≤ i) : textAt L i = [] := by
  unfold textAt
  rw [List.getD_eq_default _ _ h]
  rfl

/-- A line without text is no heading. -/
theorem headingAt?_eq_none_of_textAt (h : textAt L i = []) : headingAt? L i = none := by
  simp [headingAt?, h]

/-- A heading stands on a line. -/
theorem lt_length_of_headingAt? {h : Heading} (hh : headingAt? L i = some h) : i < L.length := by
  by_contra hi
  rw [headingAt?_eq_none_of_textAt (textAt_of_length_le (by omega))] at hh
  cases hh

/-- An ordinary line is a line. -/
theorem Ordinary.lt_length (h : Ordinary L i) : i < L.length := by
  by_contra hi
  exact h.1 (textAt_of_length_le (by omega))

/-- A line adds a title if it reads as one. -/
theorem titledBefore_succ (L : List Text) (i : Nat) :
    titledBefore L (i + 1) =
      (titledBefore L i || (Heading.parse? (textAt L i)).any Heading.isTitle) := by
  simp [titledBefore, List.range_succ, List.any_append]

/-- A heading adds a title just if it is one. -/
theorem titledBefore_succ_of_heading {h : Heading} (hh : headingAt? L i = some h) :
    titledBefore L (i + 1) = (titledBefore L i || h.isTitle) :=
  (titledBefore_succ L i).trans (titledAfter_of_heading hh)

/-- A line that is no heading leaves the title as it is. -/
theorem titledBefore_succ_of_none (hh : headingAt? L i = none) :
    titledBefore L (i + 1) = titledBefore L i :=
  (titledBefore_succ L i).trans (titledAfter_of_none hh)

/-- The part that is open at a line: the one that the last heading before it opens. -/
def partAt? (L : List Text) : Nat → Option Part
  | 0 => none
  | i + 1 =>
    match headingAt? L i with
    | some h => h.opened?
    | none => partAt? L i

/-- A line that is no heading leaves the part as it is. -/
theorem partAt?_succ_of_none (h : headingAt? L i = none) : partAt? L (i + 1) = partAt? L i := by
  simp [partAt?, h]

/-- A line is in a part just if the last heading before it opens that part. -/
theorem partAt?_eq_some_iff :
    partAt? L i = some part ↔
      ∃ j < i, Opens L part j ∧ ∀ k < i, j < k → headingAt? L k = none := by
  induction i with
  | zero => simp [partAt?]
  | succ i ih =>
    unfold partAt?
    cases hh : headingAt? L i with
    | some h =>
      constructor
      · intro hopened
        refine ⟨i, Nat.lt_succ_self i, by simp [Opens, hh, hopened], ?_⟩
        intro k hk hik
        omega
      · rintro ⟨j, hj, hopens, hnone⟩
        obtain rfl : j = i := by
          by_contra hne
          have := hnone i (by omega) (by omega)
          rw [hh] at this
          cases this
        simpa [Opens, hh] using hopens
    | none =>
      rw [ih]
      constructor
      · rintro ⟨j, hj, hopens, hnone⟩
        refine ⟨j, by omega, hopens, ?_⟩
        intro k hk hjk
        by_cases hki : k = i
        · rw [hki, hh]
        · exact hnone k (by omega) hjk
      · rintro ⟨j, hj, hopens, hnone⟩
        have hji : j ≠ i := by
          rintro rfl
          simp [Opens, hh] at hopens
        exact ⟨j, by omega, hopens, fun k hk hjk => hnone k (by omega) hjk⟩

/-- A line lies in a part just if it is ordinary and the part is open there. -/
theorem liesIn_iff : LiesIn L part i ↔ Ordinary L i ∧ partAt? L i = some part := by
  rw [partAt?_eq_some_iff]
  constructor
  · rintro ⟨j, hj, hopens, hordinary, -, hnone⟩
    exact ⟨hordinary, j, hj, hopens, hnone⟩
  · rintro ⟨hordinary, j, hj, hopens, hnone⟩
    exact ⟨j, hj, hopens, hordinary, hj, hnone⟩

/-! ## What the reader has before it -/

/-- A line with its number. -/
def lineAt (L : List Text) (i : Nat) : Line := ⟨i + 1, L.getD i []⟩

/-- The numbered lines from a position on. -/
def linesFrom (L : List Text) (i : Nat) : List Line := numberedFrom (i + 1) (L.drop i)

/-- The marks from a position on. -/
def marksFrom (L : List Text) (i : Nat) : List Mark :=
  marks (titledBefore L i) (linesFrom L i)

/-- The outline of a text is the blocks of its marks. -/
theorem ofText_eq_blocks (document : Text) :
    ofText document = blocks (marksFrom (lines document) 0) := rfl

/-- The lines from a position are the one there and those behind it. -/
theorem linesFrom_of_lt (hi : i < L.length) :
    linesFrom L i = lineAt L i :: linesFrom L (i + 1) := by
  unfold linesFrom lineAt
  rw [List.drop_eq_getElem_cons hi, List.getD_eq_getElem _ _ hi]
  rfl

/-- Behind the last line there are no marks. -/
theorem marksFrom_of_length_le (h : L.length ≤ i) : marksFrom L i = [] := by
  unfold marksFrom linesFrom
  rw [List.drop_eq_nil_of_le h]
  rfl

/-- A heading is marked, and the marks go on behind it. -/
theorem marksFrom_of_heading {h : Heading} (hh : headingAt? L i = some h) :
    marksFrom L i = .heading h (i + 1) :: marksFrom L (i + 1) := by
  unfold marksFrom
  rw [linesFrom_of_lt (lt_length_of_headingAt? hh), titledBefore_succ_of_heading hh]
  exact marks_cons_heading hh

/-- An ordinary line is marked, and the marks go on behind it. -/
theorem marksFrom_of_ordinary (h : Ordinary L i) :
    marksFrom L i = .body (lineAt L i) :: marksFrom L (i + 1) := by
  obtain ⟨htext, hh, hcomment⟩ := h
  unfold marksFrom
  rw [linesFrom_of_lt (Ordinary.lt_length ⟨htext, hh, hcomment⟩), titledBefore_succ_of_none hh]
  exact marks_cons_body htext hh hcomment

/-- A line that is neither is passed over. -/
theorem marksFrom_of_passed (hi : i < L.length) (hh : headingAt? L i = none)
    (h : ¬ Ordinary L i) : marksFrom L i = marksFrom L (i + 1) := by
  unfold marksFrom
  rw [linesFrom_of_lt hi, titledBefore_succ_of_none hh]
  by_cases htext : textAt L i = []
  · exact marks_cons_blank htext
  · cases hcomment : isComment (textAt L i) with
    | true => exact marks_cons_comment hh hcomment
    | false => exact absurd ⟨htext, hh, hcomment⟩ h

/-- Induction along the document from its end: at a line the reader meets a heading, or an ordinary
line, or passes on. -/
theorem marksFrom_induction {motive : Nat → List Mark → Prop}
    (done : ∀ i, L.length ≤ i → motive i [])
    (heading : ∀ i h, headingAt? L i = some h → motive (i + 1) (marksFrom L (i + 1)) →
      motive i (.heading h (i + 1) :: marksFrom L (i + 1)))
    (body : ∀ i, Ordinary L i → motive (i + 1) (marksFrom L (i + 1)) →
      motive i (.body (lineAt L i) :: marksFrom L (i + 1)))
    (pass : ∀ i, i < L.length → headingAt? L i = none → ¬ Ordinary L i →
      motive (i + 1) (marksFrom L (i + 1)) → motive i (marksFrom L (i + 1)))
    (i : Nat) : motive i (marksFrom L i) := by
  induction hleft : L.length - i generalizing i with
  | zero =>
    rw [marksFrom_of_length_le (by omega)]
    exact done i (by omega)
  | succ left ih =>
    have hrest := ih (i + 1) (by omega)
    cases hh : headingAt? L i with
    | some h =>
      rw [marksFrom_of_heading hh]
      exact heading i h hh hrest
    | none =>
      by_cases hordinary : Ordinary L i
      · rw [marksFrom_of_ordinary hordinary]
        exact body i hordinary hrest
      · rw [marksFrom_of_passed (by omega) hh hordinary]
        exact pass i (by omega) hh hordinary hrest

/-! ## Lines up to a stop -/

section KeptFrom

variable {keep stop : Nat → Prop} [DecidablePred keep] [DecidablePred stop] {e : Nat}

variable (keep stop) in
/-- Of the positions from `i` up to `e`, those to keep that no stop comes before. -/
def keptFrom (i e : Nat) : List Nat :=
  (List.range' i (e - i)).filter fun k => decide (keep k ∧ ∀ m < k, i ≤ m → ¬ stop m)

/-- Behind the end nothing is kept. -/
theorem keptFrom_of_le (hi : e ≤ i) : keptFrom keep stop i e = [] := by
  unfold keptFrom
  rw [Nat.sub_eq_zero_of_le hi]
  rfl

/-- Where it stops nothing more is kept. -/
theorem keptFrom_of_stop (hstop : stop i) (hkeep : ¬ keep i) : keptFrom keep stop i e = [] := by
  unfold keptFrom
  rw [List.filter_eq_nil_iff]
  intro k hk
  obtain ⟨hik, -⟩ := List.mem_range'_1.mp hk
  simp only [decide_eq_true_eq, not_and, not_forall]
  intro hkept
  have hne : k ≠ i := by
    rintro rfl
    exact hkeep hkept
  exact ⟨i, by omega, Nat.le_refl i, not_not_intro hstop⟩

/-- The positions that are kept behind a start are those before the first stop. -/
theorem filter_range'_eq_keptFrom (hstop : ¬ stop i) :
    (List.range' (i + 1) (e - (i + 1))).filter
        (fun k => decide (keep k ∧ ∀ m < k, i ≤ m → ¬ stop m)) =
      keptFrom keep stop (i + 1) e := by
  apply List.filter_congr
  intro k _
  apply decide_eq_decide.mpr
  refine and_congr_right fun _ => forall_congr' fun m => forall_congr' fun _ => ?_
  constructor
  · intro h him
    exact h (by omega)
  · intro h him
    by_cases hmi : m = i
    · rwa [hmi]
    · exact h (by omega)

/-- A position that is kept comes first. -/
theorem keptFrom_of_keep (hi : i < e) (hstop : ¬ stop i) (hkeep : keep i) :
    keptFrom keep stop i e = i :: keptFrom keep stop (i + 1) e := by
  rw [← filter_range'_eq_keptFrom hstop, keptFrom, range'_of_lt hi, List.filter_cons_of_pos]
  simp only [decide_eq_true_eq]
  exact ⟨hkeep, fun m hm him => by omega⟩

/-- A position that is not kept is passed over. -/
theorem keptFrom_of_pass (hi : i < e) (hstop : ¬ stop i) (hkeep : ¬ keep i) :
    keptFrom keep stop i e = keptFrom keep stop (i + 1) e := by
  rw [← filter_range'_eq_keptFrom hstop, keptFrom, range'_of_lt hi, List.filter_cons_of_neg]
  simp only [decide_eq_true_eq]
  exact fun h => hkeep h.1

end KeptFrom

/-- The reader gives a heading the ordinary lines up to the next one. -/
theorem bodyLines_marksFrom (L : List Text) (i : Nat) :
    bodyLines (marksFrom L i) =
      (keptFrom (Ordinary L) (fun m => headingAt? L m ≠ none) i L.length).map (lineAt L) := by
  refine marksFrom_induction (motive := fun i ms => bodyLines ms =
    (keptFrom (Ordinary L) (fun m => headingAt? L m ≠ none) i L.length).map (lineAt L))
    ?done ?heading ?body ?pass i
  case done =>
    intro i hi
    rw [keptFrom_of_le hi]
    rfl
  case heading =>
    intro i h hh _
    rw [keptFrom_of_stop (by simp [hh]) (fun hordinary => by simp [hordinary.2.1] at hh)]
    rfl
  case body =>
    intro i hordinary ih
    rw [keptFrom_of_keep hordinary.lt_length (by simp [hordinary.2.1]) hordinary,
      List.map_cons, ← ih]
    rfl
  case pass =>
    intro i hi hh hordinary ih
    rw [keptFrom_of_pass hi (by simp [hh]) hordinary]
    exact ih

end Outline

end Concordance
