import Concordance.Proofs.Listing
import Concordance.Proofs.Sections

set_option autoImplicit false

/-!
# What each line of a specification says

Reading a specification is described line by line. A line declares an operation if it lies in the
part of its kind, does not start with a dash and reads as a signature (`declaredIn`); a line with a
dash is a remark on the declaration before it if there is nothing but such lines, blank lines and
comments in between (`remarksAt`); and the prose of a part is that of its last section
(`IsProseOf`). Each of the three is an induction along the document, and the reader is shown to give
just that.
-/

namespace Concordance

open Text Outline

namespace Specification

/-! ## The account by position -/

/-- The positions after a line. -/
def positionsAfter (L : List Text) (i : Nat) : List Nat :=
  List.range' (i + 1) (L.length - (i + 1))

/-- A line is a remark on the declaration on another line: it starts with a dash, and so does every
ordinary line in between. -/
def RemarksOn (L : List Text) (i k : Nat) : Prop :=
  Under L i k ∧ Dashed L k ∧ ∀ m < k, i < m → Ordinary L m → Dashed L m

/-- A line is in the place of a declaration: it lies in the part, and it does not start with a
dash. -/
def Declares (L : List Text) (part : Part) (i : Nat) : Prop := LiesIn L part i ∧ ¬ Dashed L i

instance (L : List Text) (i k : Nat) : Decidable (RemarksOn L i k) :=
  inferInstanceAs (Decidable (_ ∧ _))

instance (L : List Text) (part : Part) (i : Nat) : Decidable (Declares L part i) :=
  inferInstanceAs (Decidable (_ ∧ _))

/-- The text of a line after its dash. -/
def remarkAt (L : List Text) (k : Nat) : Text := trim ((textAt L k).drop 1)

/-- The remarks on the declaration on a line. -/
def remarksAt (L : List Text) (i : Nat) : List Text :=
  ((positionsAfter L i).filter fun k => decide (RemarksOn L i k)).map (remarkAt L)

/-- The operation that a line declares, if it reads as a signature. -/
def operationAt? (L : List Text) (i : Nat) : Option Operation :=
  (Signature.parse? (textAt L i) (i + 1)).map fun op =>
    { op with description := (remarksAt L i).foldl addRemark [] }

/-- The operations that the lines of a part declare. -/
def declaredIn (L : List Text) (part : Part) : List Operation :=
  ((List.range L.length).filter fun i => decide (Declares L part i)).filterMap (operationAt? L)

/-- The text on the line of a heading. -/
def inlinedAt (L : List Text) (j : Nat) : List Text :=
  match headingAt? L j with
  | some (.opens _ (some inlined)) => [trim inlined]
  | _ => []

/-- The prose of the section that a line opens. -/
def proseAt (L : List Text) (j : Nat) : Text :=
  joinWith " " ((inlinedAt L j ++
    ((positionsAfter L j).filter fun i => decide (Under L j i)).map (textAt L)).filter
      fun t => !t.isEmpty)

/-- A text is the prose of a part: that of the last section of its kind. -/
structure IsProseOf (L : List Text) (part : Part) (text : Text) : Prop where
  absent : (∀ j, ¬ Opens L part j) → text = []
  last : ∀ j, Opens L part j → (∀ k, j < k → ¬ Opens L part k) → text = proseAt L j

variable {L : List Text} {part : Part} {i : Nat}

/-! ## Remarks -/

/-- A dashed line is a remark. -/
theorem remark?_of_dashed (h : Dashed L i) : remark? (lineAt L i) = some (remarkAt L i) := by
  obtain ⟨rest, hrest⟩ := startsWith_iff.mp h
  have htext : trim (lineAt L i).text = "-" ++ rest := hrest
  have hdrop : (textAt L i).drop 1 = rest := by rw [hrest]; rfl
  unfold remark? remarkAt
  rw [after?_eq_some_iff.mpr htext, hdrop]
  rfl

/-- A line without a dash is no remark. -/
theorem remark?_of_not_dashed (h : ¬ Dashed L i) : remark? (lineAt L i) = none := by
  unfold remark?
  rw [Option.map_eq_none_iff, ← Option.not_isSome_iff_eq_none]
  exact h

/-- The remarks at the start of a body are the dashed lines before the first heading or other
ordinary line. -/
theorem remarks_bodyLines (L : List Text) (i : Nat) :
    remarks (bodyLines (marksFrom L i)) =
      (keptFrom (fun k => Ordinary L k ∧ Dashed L k)
        (fun m => headingAt? L m ≠ none ∨ Ordinary L m ∧ ¬ Dashed L m) i L.length).map
        (remarkAt L) := by
  refine marksFrom_induction (motive := fun i ms => remarks (bodyLines ms) =
    (keptFrom (fun k => Ordinary L k ∧ Dashed L k)
      (fun m => headingAt? L m ≠ none ∨ Ordinary L m ∧ ¬ Dashed L m) i L.length).map
      (remarkAt L)) ?done ?heading ?body ?pass i
  case done =>
    intro i hi
    rw [keptFrom_of_le hi]
    rfl
  case heading =>
    intro i h hh _
    rw [keptFrom_of_stop (by simp [hh]) (fun hkeep => by simp [hkeep.1.2.1] at hh)]
    rfl
  case body =>
    intro i hordinary ih
    by_cases hdash : Dashed L i
    · have hgo : ¬ (headingAt? L i ≠ none ∨ Ordinary L i ∧ ¬ Dashed L i) := by
        simp [hordinary.2.1, hdash]
      rw [keptFrom_of_keep hordinary.lt_length hgo ⟨hordinary, hdash⟩, List.map_cons, ← ih,
        bodyLines, remarks, remark?_of_dashed hdash]
    · rw [keptFrom_of_stop (Or.inr ⟨hordinary, hdash⟩) (fun hkeep => hdash hkeep.2), bodyLines,
        remarks, remark?_of_not_dashed hdash]
      rfl
  case pass =>
    intro i hi hh hordinary ih
    rw [keptFrom_of_pass hi (by simp [hh, hordinary]) (fun hkeep => hordinary hkeep.1)]
    exact ih

/-- The remarks below a line are those that follow it. -/
theorem remarks_eq_remarksAt (L : List Text) (i : Nat) :
    remarks (bodyLines (marksFrom L (i + 1))) = remarksAt L i := by
  rw [remarks_bodyLines]
  unfold remarksAt keptFrom positionsAfter
  congr 1
  apply List.filter_congr
  intro k hk
  obtain ⟨hik, -⟩ := List.mem_range'_1.mp hk
  apply decide_eq_decide.mpr
  constructor
  · rintro ⟨⟨hordinary, hdash⟩, hgo⟩
    have hbetween : ∀ m < k, i < m → headingAt? L m = none ∧ (Ordinary L m → Dashed L m) := by
      intro m hm him
      have := hgo m hm him
      simpa using this
    exact ⟨⟨hordinary, hik, fun m hm him => (hbetween m hm him).1⟩, hdash,
      fun m hm him => (hbetween m hm him).2⟩
  · rintro ⟨⟨hordinary, -, hnone⟩, hdash, hdashes⟩
    refine ⟨⟨hordinary, hdash⟩, ?_⟩
    intro m hm him
    have := hdashes m hm him
    simpa [hnone m hm him] using this

/-- Remarks are added to a description with spaces between. -/
theorem foldl_addRemark_cons {description : Text} (h : description ≠ []) (remarks : List Text) :
    remarks.foldl addRemark description = joinWith " " (description :: remarks) := by
  induction remarks generalizing description with
  | nil => simp [joinWith]
  | cons r rest ih =>
    have hadd : addRemark description r = description ++ ' ' :: r := by
      simp [addRemark, h]
    rw [List.foldl_cons, hadd, ih (by simp)]
    cases rest <;> simp [joinWith]

/-- Remarks that say something are joined by spaces. -/
theorem foldl_addRemark_of_ne_nil {remarks : List Text} (h : ∀ r ∈ remarks, r ≠ []) :
    remarks.foldl addRemark [] = joinWith " " remarks := by
  cases remarks with
  | nil => rfl
  | cons r rest => exact foldl_addRemark_cons (h r List.mem_cons_self) rest

/-! ## Operations -/

end Specification

/-- The operations that a block adds to a part. -/
def Block.operations (part : Part) : Block → List Operation
  | title _ => []
  | content opened lines => if opened = part then Specification.readOperations lines else []

/-- What the prose of a part is after a block. -/
def Block.prose (part : Part) (text : Text) : Block → Text
  | title _ => text
  | content opened lines => if opened = part then Specification.prose lines else text

namespace Specification

/-- A block adds its actions to those of the specification. -/
theorem actions_addBlock (s : Specification) (b : Block) :
    (s.addBlock b).actions = s.actions ++ b.operations .actions := by
  cases b with
  | title name => simp [addBlock, Block.operations]
  | content opened lines => cases opened <;> simp [addBlock, Block.operations]

/-- A block adds its queries to those of the specification. -/
theorem queries_addBlock (s : Specification) (b : Block) :
    (s.addBlock b).queries = s.queries ++ b.operations .queries := by
  cases b with
  | title name => simp [addBlock, Block.operations]
  | content opened lines => cases opened <;> simp [addBlock, Block.operations]

/-- The actions that are read are those of all blocks. -/
theorem actions_read (document path : Text) :
    (read document path).actions = (ofText document).flatMap (Block.operations .actions) := by
  rw [List.flatMap_eq_foldl]
  exact (List.foldl_hom actions fun s b => (actions_addBlock s b).symm).symm

/-- The queries that are read are those of all blocks. -/
theorem queries_read (document path : Text) :
    (read document path).queries = (ofText document).flatMap (Block.operations .queries) := by
  rw [List.flatMap_eq_foldl]
  exact (List.foldl_hom queries fun s b => (queries_addBlock s b).symm).symm

/-- Only prose starts on the line of its heading. -/
theorem inlined_eq_none_of_parse? {line : Text} {part : Part} {inlined : Option Text}
    (h : Heading.parse? line = some (.opens part inlined))
    (hpart : part = .actions ∨ part = .queries) : inlined = none := by
  unfold Heading.parse? at h
  simp only at h
  split at h
  · split at h <;> simp at h
  · split at h
    · simp at h
      exact h.2.symm
    · split at h
      · simp at h
      · split at h
        · simp at h
          obtain ⟨rfl, -⟩ := h
          simp at hpart
        · obtain ⟨t, -, ht⟩ := Option.map_eq_some_iff.mp h
          simp at ht
          obtain ⟨rfl, -⟩ := ht
          simp at hpart

variable {L : List Text} {part : Part} {i : Nat}

/-- Only an ordinary line declares an operation. -/
theorem not_declares_of_not_ordinary (h : ¬ Ordinary L i) : ¬ Declares L part i :=
  fun hdeclares => h (liesIn_iff.mp hdeclares.1).1

/-- A dashed line is passed over by the operations. -/
theorem readOperations_cons_of_dashed (h : Dashed L i) (rest : List Line) :
    readOperations (lineAt L i :: rest) = readOperations rest := by
  rw [readOperations, remark?_of_dashed h]

/-- A line without a dash gives the operation that it declares, if it does. -/
theorem readOperations_cons_of_not_dashed (h : ¬ Dashed L i) :
    readOperations (lineAt L i :: bodyLines (marksFrom L (i + 1))) =
      (operationAt? L i).toList ++ readOperations (bodyLines (marksFrom L (i + 1))) := by
  rw [readOperations, remark?_of_not_dashed h, remarks_eq_remarksAt]
  have hparse : Signature.parse? (trim (lineAt L i).text) (lineAt L i).number =
      Signature.parse? (textAt L i) (i + 1) := rfl
  unfold operationAt?
  rw [hparse]
  cases Signature.parse? (textAt L i) (i + 1) <;> rfl

/-- The operations that are still to come in a part: those under the heading before, if it opens the
part, and those of the blocks ahead. -/
theorem operations_marksFrom (hpart : part = .actions ∨ part = .queries) (i : Nat) :
    (if partAt? L i = some part then readOperations (bodyLines (marksFrom L i)) else []) ++
        (blocks (marksFrom L i)).flatMap (Block.operations part) =
      ((List.range' i (L.length - i)).filter fun k => decide (Declares L part k)).filterMap
        (operationAt? L) := by
  refine marksFrom_induction (motive := fun i ms =>
    (if partAt? L i = some part then readOperations (bodyLines ms) else []) ++
        (blocks ms).flatMap (Block.operations part) =
      ((List.range' i (L.length - i)).filter fun k => decide (Declares L part k)).filterMap
        (operationAt? L)) ?done ?heading ?body ?pass i
  case done =>
    intro i hi
    rw [Nat.sub_eq_zero_of_le hi]
    simp [bodyLines, readOperations, blocks]
  case heading =>
    intro i h hh ih
    have hnot : ¬ Declares L part i := by
      apply not_declares_of_not_ordinary
      intro hordinary
      simp [hordinary.2.1] at hh
    rw [range'_of_lt (lt_length_of_headingAt? hh), List.filter_cons_of_neg (by simpa using hnot),
      ← ih]
    cases h with
    | title name =>
      simp [partAt?, hh, Heading.opened?, bodyLines, readOperations, blocks, Block.operations]
    | opens opened inlined =>
      by_cases hopened : opened = part
      · subst hopened
        have hinlined : inlined = none :=
          inlined_eq_none_of_parse? (Option.filter_eq_some_iff.mp hh).1 hpart
        simp [partAt?, hh, Heading.opened?, bodyLines, readOperations, blocks, Block.operations,
          hinlined]
      · simp [partAt?, hh, Heading.opened?, bodyLines, readOperations, blocks, Block.operations,
          hopened]
  case body =>
    intro i hordinary ih
    rw [partAt?_succ_of_none hordinary.2.1] at ih
    rw [range'_of_lt hordinary.lt_length, List.filter_cons, bodyLines, blocks]
    by_cases hin : partAt? L i = some part
    · rw [if_pos hin] at ih ⊢
      by_cases hdash : Dashed L i
      · have hnot : ¬ Declares L part i := fun h => h.2 hdash
        rw [readOperations_cons_of_dashed hdash, ih, if_neg (by simpa using hnot)]
      · have hdeclares : Declares L part i := ⟨liesIn_iff.mpr ⟨hordinary, hin⟩, hdash⟩
        rw [readOperations_cons_of_not_dashed hdash, List.append_assoc, ih,
          if_pos (by simpa using hdeclares)]
        cases hop : operationAt? L i with
        | none => rw [List.filterMap_cons_none hop]; rfl
        | some op => rw [List.filterMap_cons_some hop]; rfl
    · have hnot : ¬ Declares L part i := fun h => hin (liesIn_iff.mp h.1).2
      rw [if_neg hin] at ih ⊢
      rw [ih, if_neg (by simpa using hnot)]
  case pass =>
    intro i hi hh hordinary ih
    have hnot : ¬ Declares L part i := not_declares_of_not_ordinary hordinary
    rw [partAt?_succ_of_none hh] at ih
    rw [range'_of_lt hi, List.filter_cons_of_neg (by simpa using hnot)]
    exact ih

/-- The operations of a part in all blocks are the ones declared in it. -/
theorem operations_ofText (document : Text) (hpart : part = .actions ∨ part = .queries) :
    (ofText document).flatMap (Block.operations part) = declaredIn (lines document) part := by
  have h := operations_marksFrom (L := lines document) hpart 0
  rw [← List.range_eq_range'] at h
  rw [ofText_eq_blocks]
  exact h

/-! ## Prose -/

/-- A block sets the purpose if it is of the purpose. -/
theorem purpose_addBlock (s : Specification) (b : Block) :
    (s.addBlock b).purpose = b.prose .purpose s.purpose := by
  cases b with
  | title name => rfl
  | content opened lines => cases opened <;> rfl

/-- A block sets the principle if it is of the principle. -/
theorem principle_addBlock (s : Specification) (b : Block) :
    (s.addBlock b).principle = b.prose .principle s.principle := by
  cases b with
  | title name => rfl
  | content opened lines => cases opened <;> rfl

/-- The purpose that is read is that of the last block of it. -/
theorem purpose_read (document path : Text) :
    (read document path).purpose =
      (ofText document).foldl (fun text b => b.prose .purpose text) [] :=
  (List.foldl_hom purpose fun s b => (purpose_addBlock s b).symm).symm

/-- The principle that is read is that of the last block of it. -/
theorem principle_read (document path : Text) :
    (read document path).principle =
      (ofText document).foldl (fun text b => b.prose .principle text) [] :=
  (List.foldl_hom principle fun s b => (principle_addBlock s b).symm).symm

/-- The body below a heading is the ordinary lines under it. -/
theorem bodyLines_eq_under (L : List Text) (i : Nat) :
    bodyLines (marksFrom L (i + 1)) =
      ((positionsAfter L i).filter fun k => decide (Under L i k)).map (lineAt L) := by
  rw [bodyLines_marksFrom]
  unfold keptFrom positionsAfter
  congr 1
  apply List.filter_congr
  intro k hk
  obtain ⟨hik, -⟩ := List.mem_range'_1.mp hk
  apply decide_eq_decide.mpr
  constructor
  · rintro ⟨hordinary, hgo⟩
    exact ⟨hordinary, hik, fun m hm him => by simpa using hgo m hm him⟩
  · rintro ⟨hordinary, -, hnone⟩
    exact ⟨hordinary, fun m hm him => by simpa using hnone m hm him⟩

/-- The prose of a section is what the heading has inlined and the body below it. -/
theorem prose_section {inlined : Option Text} (h : headingAt? L i = some (.opens part inlined)) :
    prose ((inlined.map (Line.mk (i + 1))).toList ++ bodyLines (marksFrom L (i + 1))) =
      proseAt L i := by
  have hinlined : ((inlined.map (Line.mk (i + 1))).toList).map (fun l => trim l.text) =
      inlinedAt L i := by
    unfold inlinedAt
    rw [h]
    cases inlined <;> rfl
  unfold prose proseAt
  rw [List.map_append, hinlined, bodyLines_eq_under, List.map_map]
  rfl

/-- A text is the prose of a part after the lines from `i` on, where it was `before` up to there. -/
structure IsProseFrom (L : List Text) (part : Part) (i : Nat) (before text : Text) : Prop where
  absent : (∀ j, i ≤ j → ¬ Opens L part j) → text = before
  last : ∀ j, i ≤ j → Opens L part j → (∀ k, j < k → ¬ Opens L part k) → text = proseAt L j

/-- A line that opens another part or none does not change the prose. -/
theorem IsProseFrom.of_not_opens {before text : Text} (h : ¬ Opens L part i)
    (hnext : IsProseFrom L part (i + 1) before text) : IsProseFrom L part i before text where
  absent habsent := hnext.absent fun j hj => habsent j (by omega)
  last j hij hopens hlast := by
    have hne : j ≠ i := by
      rintro rfl
      exact h hopens
    exact hnext.last j (by omega) hopens hlast

/-- A line that opens the part starts its prose anew. -/
theorem IsProseFrom.of_opens {before text : Text} (h : Opens L part i)
    (hnext : IsProseFrom L part (i + 1) (proseAt L i) text) :
    IsProseFrom L part i before text where
  absent habsent := absurd h (habsent i (Nat.le_refl i))
  last j hij hopens hlast := by
    by_cases hji : j = i
    · subst hji
      exact hnext.absent fun k hk => hlast k hk
    · exact hnext.last j (by omega) hopens hlast

/-- The blocks from a position give the prose from there. -/
theorem isProseFrom_marksFrom (L : List Text) (part : Part) (i : Nat) :
    ∀ before, IsProseFrom L part i before
      ((blocks (marksFrom L i)).foldl (fun text b => b.prose part text) before) := by
  refine marksFrom_induction (motive := fun i ms => ∀ before, IsProseFrom L part i before
    ((blocks ms).foldl (fun text b => b.prose part text) before)) ?done ?heading ?body ?pass i
  case done =>
    intro i hi before
    refine ⟨fun _ => rfl, ?_⟩
    intro j hij hopens
    have htext := textAt_of_length_le (L := L) (i := j) (by omega)
    simp [Opens, headingAt?_eq_none_of_textAt htext] at hopens
  case heading =>
    intro i h hh ih before
    cases h with
    | title name => exact .of_not_opens (by simp [Opens, hh, Heading.opened?]) (ih before)
    | opens opened inlined =>
      rw [blocks, List.foldl_cons]
      by_cases hopened : opened = part
      · subst hopened
        have hsection := prose_section hh
        simp only [Block.prose, if_true, hsection]
        exact .of_opens (by simp [Opens, hh, Heading.opened?]) (ih (proseAt L i))
      · simp only [Block.prose, if_neg hopened]
        exact .of_not_opens (by simp [Opens, hh, Heading.opened?, hopened]) (ih before)
  case body =>
    intro i hordinary ih before
    exact .of_not_opens (by simp [Opens, hordinary.2.1]) (ih before)
  case pass =>
    intro i hi hh _ ih before
    exact .of_not_opens (by simp [Opens, hh]) (ih before)

/-- The outline gives the prose of each part. -/
theorem isProseOf_ofText (document : Text) (part : Part) :
    IsProseOf (lines document) part
      ((ofText document).foldl (fun text b => b.prose part text) []) := by
  have h := isProseFrom_marksFrom (lines document) part 0 []
  rw [ofText_eq_blocks]
  exact ⟨fun habsent => h.absent fun j _ => habsent j, fun j => h.last j (Nat.zero_le j)⟩

/-! ## The whole account -/

/-- An operation has the line and the text of its signature. -/
theorem line_of_parse? {line : Text} {n : Nat} {op : Operation}
    (h : Signature.parse? line n = some op) : op.line = n ∧ op.signature = line := by
  simp only [Signature.parse?, Option.bind_eq_bind, Option.bind_eq_some_iff, Option.some.injEq] at h
  obtain ⟨-, -, -, -, -, -, -, -, rfl⟩ := h
  exact ⟨rfl, rfl⟩

/-- An operation on a line has its number, its text and the remarks below it. -/
theorem of_operationAt?_eq_some {op : Operation} (h : operationAt? L i = some op) :
    op.line = i + 1 ∧ op.signature = textAt L i ∧
      op.description = (remarksAt L i).foldl addRemark [] := by
  obtain ⟨parsed, hparsed, rfl⟩ := Option.map_eq_some_iff.mp h
  obtain ⟨hline, hsignature⟩ := line_of_parse? hparsed
  exact ⟨hline, hsignature, rfl⟩

/-- The operations declared in a part are those on the lines that declare one there. -/
theorem mem_declaredIn_iff {op : Operation} :
    op ∈ declaredIn L part ↔
      ∃ i < L.length, Declares L part i ∧ operationAt? L i = some op := by
  simp only [declaredIn, List.mem_filterMap, List.mem_filter, List.mem_range, decide_eq_true_eq]
  constructor
  · rintro ⟨i, ⟨hi, hdeclares⟩, hop⟩
    exact ⟨i, hi, hdeclares, hop⟩
  · rintro ⟨i, hi, hdeclares, hop⟩
    exact ⟨i, ⟨hi, hdeclares⟩, hop⟩

/-- The operations declared in a part come in the order of their lines. -/
theorem pairwise_line_declaredIn (L : List Text) (part : Part) :
    ((declaredIn L part).map Operation.line).Pairwise (· < ·) := by
  rw [List.pairwise_map, declaredIn, List.pairwise_filterMap]
  apply List.Pairwise.imp _ (List.pairwise_lt_range.filter _)
  intro i j hij op hop op' hop'
  rw [(of_operationAt?_eq_some hop).1, (of_operationAt?_eq_some hop').1]
  omega

/-- Operations of different parts are on different lines. -/
theorem line_ne_of_mem_declaredIn {part' : Part} (hne : part ≠ part') {op op' : Operation}
    (h : op ∈ declaredIn L part) (h' : op' ∈ declaredIn L part') : op.line ≠ op'.line := by
  obtain ⟨i, -, hdeclares, hop⟩ := mem_declaredIn_iff.mp h
  obtain ⟨j, -, hdeclares', hop'⟩ := mem_declaredIn_iff.mp h'
  rw [(of_operationAt?_eq_some hop).1, (of_operationAt?_eq_some hop').1]
  intro hline
  obtain rfl : i = j := by omega
  -- A line lies in one part only, the one that is open there.
  have hpart := (liesIn_iff.mp hdeclares.1).2
  rw [(liesIn_iff.mp hdeclares'.1).2] at hpart
  exact hne (Option.some.inj hpart).symm

/-- Where an operation stands in the document, and what its description is. -/
structure IsDeclaredAt (L : List Text) (i : Nat) (op : Operation) : Prop where
  inDocument : i < L.length
  line : op.line = i + 1
  signature : op.signature = textAt L i
  description : op.description = (remarksAt L i).foldl addRemark []
  joined : (∀ r ∈ remarksAt L i, r ≠ []) → op.description = joinWith " " (remarksAt L i)

/-- Every declared operation is declared on a line. -/
theorem exists_isDeclaredAt {op : Operation} (h : op ∈ declaredIn L part) :
    ∃ i, IsDeclaredAt L i op := by
  obtain ⟨i, hi, -, hop⟩ := mem_declaredIn_iff.mp h
  obtain ⟨hline, hsignature, hdescription⟩ := of_operationAt?_eq_some hop
  refine ⟨i, hi, hline, hsignature, hdescription, ?_⟩
  intro hsay
  rw [hdescription, foldl_addRemark_of_ne_nil hsay]

/-- The actions of a specification are those that the lines of its actions parts declare, in order,
and so it is with queries; each list ascends by line and they share none. A description is what the
remarks below a declaration say, joined by spaces if each of them says something. Purpose and
principle are the prose of the last section of their kind. -/
theorem lines_attributed_to_sections (document path : Text) :
    (read document path).actions = declaredIn (lines document) .actions ∧
    (read document path).queries = declaredIn (lines document) .queries ∧
    ((read document path).actions.map Operation.line).Pairwise (· < ·) ∧
    ((read document path).queries.map Operation.line).Pairwise (· < ·) ∧
    (∀ a ∈ (read document path).actions, ∀ q ∈ (read document path).queries, a.line ≠ q.line) ∧
    (∀ op ∈ (read document path).actions ++ (read document path).queries,
      ∃ i, IsDeclaredAt (lines document) i op) ∧
    IsProseOf (lines document) .purpose (read document path).purpose ∧
    IsProseOf (lines document) .principle (read document path).principle := by
  have hactions : (read document path).actions = declaredIn (lines document) .actions := by
    rw [actions_read, operations_ofText document (Or.inl rfl)]
  have hqueries : (read document path).queries = declaredIn (lines document) .queries := by
    rw [queries_read, operations_ofText document (Or.inr rfl)]
  rw [hactions, hqueries, purpose_read, principle_read]
  refine ⟨rfl, rfl, pairwise_line_declaredIn _ _, pairwise_line_declaredIn _ _, ?_, ?_,
    isProseOf_ofText document .purpose, isProseOf_ofText document .principle⟩
  · intro a ha q hq
    exact line_ne_of_mem_declaredIn (by decide) ha hq
  · intro op hop
    rcases List.mem_append.mp hop with hop | hop
    · exact exists_isDeclaredAt hop
    · exact exists_isDeclaredAt hop

end Specification

end Concordance
