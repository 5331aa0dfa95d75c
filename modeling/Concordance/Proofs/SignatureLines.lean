import Concordance.Proofs.Outcomes
import Concordance.Proofs.RoundTrip

set_option autoImplicit false

/-!
# Reading signature lines back

A signature line is written for a name, parameters with their types, a sign and outcomes (`Draft`).
Types and outcomes may hold any brackets that are nested, and within them any commas and bars. Each
scanner of the reader counts brackets on its own: the one that looks for the closing parenthesis,
the two that split at commas and bars, and the one that looks for a label. What is written apart is
therefore read apart (`parse?_line`). The label of an outcome is said by its shape (`HasLabel`), and
with distinct labels the outcomes are kept under them (`parse?_draft_line`).
-/

namespace Concordance

namespace Signature

open Text

/-- The label of an outcome of the shape `{label: T}` or `(label: T)`: what stands before the first
colon of the first field. -/
inductive HasLabel : (outcome label : Text) → Prop where
  | shape {opening closing : Char} {lead type more rest : Text}
      (hopening : opening = '\x7b' ∨ opening = '(') (hclosing : isClosing closing = true)
      (hinner : IsNested (lead ++ ':' :: type ++ more))
      (hfield : IsWhole ',' (lead ++ ':' :: type))
      (hmore : more = [] ∨ level (lead ++ ':' :: type) = 0 ∧ more.head? = some ',')
      (hlead : ':' ∉ lead) (hlabel : trim lead ≠ []) :
      HasLabel (opening :: (lead ++ ':' :: type ++ more ++ closing :: rest)) (trim lead)

section Label

variable {outcome label tail : Text} {opening : Char}

/-- The label of a bracketed outcome is what stands before the first colon of its first part. -/
theorem outcomeLabel?_cons_of_opening (hopening : opening = '\x7b' ∨ opening = '(') :
    outcomeLabel? (opening :: tail) = some label ↔
      ∃ inner rest first lead type, enclosed tail = some (inner, rest) ∧
        (splitTop ',' inner).head? = some first ∧ cutAt ':' first = some (lead, type) ∧
        trim lead ≠ [] ∧ label = trim lead := by
  have hcut : cutWhere (fun c => c = '\x7b' || c = '(') (opening :: tail) = some ([], tail) := by
    simp [cutWhere, hopening]
  have hread : outcomeLabel? (opening :: tail) = (enclosed tail).bind fun pieces =>
      (splitTop ',' pieces.1).head?.bind fun first => (cutAt ':' first).bind fun sides =>
        if (trim sides.1).isEmpty then none else some (trim sides.1) := by
    unfold outcomeLabel?
    rw [hcut]
    rfl
  simp only [hread, Option.bind_eq_some_iff, Prod.exists]
  constructor
  · rintro ⟨inner, rest, hinner, first, hfirst, lead, type, hlead, h⟩
    split at h
    · cases h
    · next hne =>
      exact ⟨inner, rest, first, lead, type, hinner, hfirst, hlead, by simpa using hne,
        (Option.some.inj h).symm⟩
  · rintro ⟨inner, rest, first, lead, type, hinner, hfirst, hlead, hne, rfl⟩
    exact ⟨inner, rest, hinner, first, hfirst, lead, type, hlead, by simp [hne]⟩

/-- A text that starts with neither a blank nor one of the two brackets has no label. -/
theorem outcomeLabel?_cons_of_ne (hblank : isBlank opening = false)
    (hopening : ¬ (opening = '\x7b' ∨ opening = '(')) : outcomeLabel? (opening :: tail) = none := by
  unfold outcomeLabel?
  have hcut : cutWhere (fun c => c = '\x7b' || c = '(') (opening :: tail) =
      (cutWhere (fun c => c = '\x7b' || c = '(') tail).map
        fun pieces => (opening :: pieces.1, pieces.2) := by
    rw [cutWhere, if_neg (by simpa using hopening)]
  rw [hcut]
  cases cutWhere (fun c => c = '\x7b' || c = '(') tail with
  | none => rfl
  | some pieces => simp [trim_cons_of_neg hblank]

/-- The label that is read is the one that the outcome has. -/
theorem outcomeLabel?_eq_some_iff (htrim : trim outcome = outcome) :
    outcomeLabel? outcome = some label ↔ HasLabel outcome label := by
  constructor
  · intro h
    cases outcome with
    | nil => cases h
    | cons opening tail =>
      by_cases hopening : opening = '\x7b' ∨ opening = '('
      · obtain ⟨inner, rest, first, lead, type, hinner, hfirst, hlead, hlabel, rfl⟩ :=
          (outcomeLabel?_cons_of_opening hopening).mp h
        obtain ⟨hnested, closing, hclosing, rfl⟩ := enclosed_eq_some_iff.mp hinner
        obtain ⟨hwhole, hend⟩ := (head?_splitTop_eq_some_iff (by decide)).mp hfirst
        obtain ⟨rfl, hcolon⟩ := cutAt_eq_some_iff.mp hlead
        rcases hend with rfl | ⟨hlevel, more, rfl⟩
        · have hinner' : IsNested (lead ++ ':' :: type ++ []) := by rwa [List.append_nil]
          have hshape : HasLabel (opening :: (lead ++ ':' :: type ++ [] ++ closing :: rest))
              (trim lead) := .shape hopening hclosing hinner' hwhole (Or.inl rfl) hcolon hlabel
          rwa [List.append_nil] at hshape
        · exact HasLabel.shape hopening hclosing hnested hwhole (Or.inr ⟨hlevel, rfl⟩) hcolon hlabel
      · rw [outcomeLabel?_cons_of_ne (isBlank_eq_false_of_trim htrim) hopening] at h
        cases h
  · rintro ⟨hopening, hclosing, hinner, hfield, hmore, hlead, hlabel⟩
    next opening closing lead type more rest =>
    refine (outcomeLabel?_cons_of_opening hopening).mpr
      ⟨lead ++ ':' :: type ++ more, rest, lead ++ ':' :: type, lead, type, ?_, ?_, ?_, hlabel, rfl⟩
    · exact enclosed_eq_some_iff.mpr ⟨hinner, closing, hclosing, rfl⟩
    · refine (head?_splitTop_eq_some_iff (by decide)).mpr ⟨hfield, ?_⟩
      rcases hmore with rfl | ⟨hlevel, hcomma⟩
      · exact Or.inl (List.append_nil _)
      · obtain ⟨others, rfl⟩ : ∃ others, more = ',' :: others := List.head?_eq_some_iff.mp hcomma
        exact Or.inr ⟨hlevel, others, rfl⟩
    · exact cutAt_eq_some_iff.mpr ⟨rfl, hlead⟩

end Label

/-- A text is the key of the outcome at a position: its label if it has one, and else the
position. -/
def IsKey (i : Nat) (outcome key : Text) : Prop :=
  HasLabel outcome key ∨ (∀ label, ¬ HasLabel outcome label) ∧ key = ofNat i

/-- The key of an outcome is its label or else its position. -/
theorem isKey_iff {i : Nat} {outcome key : Text} (htrim : trim outcome = outcome) :
    IsKey i outcome key ↔ key = labelAt i outcome := by
  unfold IsKey labelAt
  cases hlabel : outcomeLabel? outcome with
  | none =>
    have hnone : ∀ label, ¬ HasLabel outcome label := by
      intro label hhas
      rw [(outcomeLabel?_eq_some_iff htrim).mpr hhas] at hlabel
      cases hlabel
    constructor
    · rintro (hhas | ⟨-, rfl⟩)
      · exact absurd hhas (hnone key)
      · rfl
    · rintro rfl
      exact Or.inr ⟨hnone, rfl⟩
  | some label =>
    have hhas := (outcomeLabel?_eq_some_iff htrim).mp hlabel
    constructor
    · rintro (hkey | ⟨hnone, -⟩)
      · rw [(outcomeLabel?_eq_some_iff htrim).mpr hkey] at hlabel
        exact Option.some.inj hlabel
      · exact absurd hhas (hnone label)
    · rintro rfl
      exact Or.inl hhas

/-! ## Outcomes with distinct keys -/

/-- Outcomes with their labels or positions. -/
def keyed (ps : List Text) : List (Text × Text) :=
  (numberFrom 0 ps).map fun part => (labelAt part.1 part.2, part.2)

/-- The last outcome is keyed at its position behind the others. -/
@[simp] theorem keyed_concat (ps : List Text) (p : Text) :
    keyed (ps ++ [p]) = keyed ps ++ [(labelAt ps.length p, p)] := by
  simp [keyed, numberFrom]

/-- Where no key comes twice, no position is appended. -/
theorem perm_entries_outcomesOf {ps : List Text} (htrim : ∀ p ∈ ps, trim p = p ∧ p ≠ [])
    (hdistinct : ((keyed ps).map Prod.fst).Nodup) : (outcomesOf ps).entries.Perm (keyed ps) := by
  induction ps using List.reverseRecOn with
  | nil => exact List.Perm.refl _
  | append_singleton ps p ih =>
    obtain ⟨hp, hne⟩ := htrim p (by simp)
    rw [keyed_concat, List.map_append, List.nodup_append] at hdistinct
    obtain ⟨hbefore, -, hnew⟩ := hdistinct
    have hperm := ih (fun q hq => htrim q (List.mem_append_left _ hq)) hbefore
    have hfree : (outcomesOf ps).contains (labelAt ps.length p) = false := by
      rw [← Bool.not_eq_true, Dict.contains_eq_true_iff, (hperm.map Prod.fst).mem_iff]
      intro hmem
      exact hnew _ hmem _ List.mem_cons_self rfl
    have hkey : keyIn (outcomesOf ps) ps.length p = labelAt ps.length p := by simp [keyIn, hfree]
    rw [outcomesOf_concat_of_ne_nil hp hne, hkey, keyed_concat]
    exact (Dict.perm_entries_insert hfree p).trans
      ((hperm.cons _).trans (List.perm_append_singleton _ _).symm)

/-! ## Printed lines -/

/-- The signs that can stand between the parameters and the outcomes. -/
inductive Sign where
  | colon
  | arrow
  | doubleArrow
deriving DecidableEq

/-- How a sign is written. -/
def Sign.text : Sign → Text
  | colon => ":"
  | arrow => "->"
  | doubleArrow => "=>"

/-- What a signature line is written for. -/
structure Draft where
  name : Text
  /-- The parameters and their types. -/
  parameters : List (Text × Text)
  sign : Sign
  outcomes : List Text

namespace Draft

/-- A parameter as it is written. -/
def parameterText (parameter : Text × Text) : Text := parameter.1 ++ ": " ++ parameter.2

/-- The line that is written. -/
def line (d : Draft) : Text :=
  d.name ++ " (" ++ joinWith ", " (d.parameters.map parameterText) ++ ") " ++ d.sign.text ++ " " ++
    joinWith " | " d.outcomes

/-- The characters of a parameter's name. -/
def isParameterChar (c : Char) : Bool := isPlainChar c && c ≠ ':' && c ≠ ','

/-- The characters of an operation's name. -/
def isOperationChar (c : Char) : Bool := !isBlank c && c ≠ '('

/-- A parameter can be told apart in a list: its name holds no colon, comma or bracket, and no comma
stands outside of the brackets of its type. -/
structure IsParameter (parameter : Text × Text) : Prop where
  name_trim : trim parameter.1 = parameter.1
  name_ne_nil : parameter.1 ≠ []
  name_chars : ∀ c ∈ parameter.1, isParameterChar c = true
  type_trim : trim parameter.2 = parameter.2
  type_nested : IsNested parameter.2
  type_whole : IsWhole ',' parameter.2

/-- An outcome can be told apart from others. -/
structure IsOutcome (outcome : Text) : Prop where
  trimmed : trim outcome = outcome
  ne_nil : outcome ≠ []
  nested : IsNested outcome
  whole : IsWhole '|' outcome

/-- What is written can be told apart on a line. -/
structure WellFormed (d : Draft) : Prop where
  name_ne_nil : d.name ≠ []
  name_chars : ∀ c ∈ d.name, isOperationChar c = true
  parameters : ∀ parameter ∈ d.parameters, IsParameter parameter
  distinct : (d.parameters.map Prod.fst).Nodup
  outcomes_ne_nil : d.outcomes ≠ []
  outcomes : ∀ outcome ∈ d.outcomes, IsOutcome outcome

/-- The name of a draft holds no blanks. -/
theorem WellFormed.not_isBlank {d : Draft} (h : d.WellFormed) :
    ∀ c ∈ d.name, isBlank c = false := by
  intro c hc
  have hchar := h.name_chars c hc
  simp only [isOperationChar, Bool.and_eq_true, Bool.not_eq_true'] at hchar
  exact hchar.1

/-- A name with a space behind it is one word. -/
theorem words_name {name : Text} (hne : name ≠ []) (h : ∀ c ∈ name, isBlank c = false) :
    words (name ++ [' ']) = [name] := by
  unfold words
  rw [List.splitOnP_append_cons_of_forall_mem h ' ' (by decide)]
  simp [hne]

/-- Behind the sign come the outcomes. -/
theorem outcomes?_sign (sign : Sign) (t : Text) : outcomes? (sign.text ++ t) = some t := by
  cases sign <;> rfl

/-- The sign is the first thing behind a space. -/
theorem trimStart_sign (sign : Sign) (t : Text) :
    trimStart (' ' :: (sign.text ++ t)) = sign.text ++ t := by
  cases sign <;> rfl

/-- A space is a blank. -/
theorem isBlank_of_mem_space : ∀ c ∈ [' '], isBlank c = true := by
  simp [isBlank]

section Parameters

variable {parameter : Text × Text}

/-- The name of a parameter holds no brackets. -/
theorem IsParameter.isPlainChar (h : IsParameter parameter) :
    ∀ c ∈ parameter.1, Text.isPlainChar c = true := by
  intro c hc
  have hchar := h.name_chars c hc
  simp only [isParameterChar, Bool.and_eq_true] at hchar
  exact hchar.1.1

/-- The name of a parameter holds neither a colon nor a comma. -/
theorem IsParameter.not_mem (h : IsParameter parameter) :
    ':' ∉ parameter.1 ∧ ',' ∉ parameter.1 := by
  constructor
  · intro hmem
    cases h.name_chars ':' hmem
  · intro hmem
    cases h.name_chars ',' hmem

/-- A parameter is nested. -/
theorem IsParameter.isNested (h : IsParameter parameter) : IsNested (parameterText parameter) :=
  ((isNested_of_forall h.isPlainChar).append (by decide)).append h.type_nested

/-- A parameter has no comma outside of brackets and closes what it opens. -/
theorem IsParameter.isWhole (h : IsParameter parameter) :
    IsWhole ',' (parameterText parameter) ∧ level (parameterText parameter) = 0 := by
  refine ⟨?_, h.isNested.1⟩
  have hname : IsWhole ',' parameter.1 := isWhole_of_not_mem h.not_mem.2
  have hlevel : level parameter.1 = 0 := level_eq_zero_of_forall h.isPlainChar
  have hfront : IsWhole ',' (parameter.1 ++ ": ") := hname.append hlevel (by decide)
  have hflat : level (parameter.1 ++ ": ") = 0 := by rw [level_append, hlevel]; rfl
  exact hfront.append hflat h.type_whole

/-- A parameter is read back from its text. -/
theorem IsParameter.input? (h : IsParameter parameter) :
    input? (parameterText parameter) = some parameter := by
  have htext : trim (parameterText parameter) =
      parameter.1 ++ ':' :: trimEnd (' ' :: parameter.2) :=
    Specification.trim_field h.name_trim h.name_ne_nil
  unfold Signature.input?
  simp only [htext, cutAt_append h.not_mem.1, h.name_trim,
    Specification.trim_trimEnd_space h.type_trim]
  rw [if_neg (by simp)]

/-- Blanks around a parameter make no difference. -/
theorem input?_trim (part : Text) : Signature.input? (trim part) = Signature.input? part := by
  unfold Signature.input?
  rw [trim_trim]

/-- Parameters that are printed with commas between them are read back. -/
theorem inputs_printed {parameters : List (Text × Text)}
    (h : ∀ parameter ∈ parameters, IsParameter parameter) :
    inputs (joinWith ", " (parameters.map parameterText)) = Dict.ofList parameters := by
  have hread : ∀ ts : List Text, (ts.map trim).filterMap Signature.input? =
      ts.filterMap Signature.input? := by
    intro ts
    rw [List.filterMap_map]
    exact List.filterMap_congr fun t _ => input?_trim t
  unfold inputs
  congr 1
  cases parameters with
  | nil => rfl
  | cons first rest =>
    have hsplit : (splitTop ',' ([] ++ joinWith ([] ++ ',' :: [' '])
        ((first :: rest).map parameterText))).map trim =
          ((first :: rest).map parameterText).map trim := by
      apply map_trim_splitTop_joinWith (by decide) (by decide) (by simp) isBlank_of_mem_space
        (by simp)
      · exact List.cons_ne_nil _ _
      · intro part hpart
        obtain ⟨parameter, hparameter, rfl⟩ := List.mem_map.mp hpart
        exact (h parameter hparameter).isWhole
    have hinputs : ((first :: rest).map parameterText).filterMap Signature.input? =
        first :: rest := by
      rw [List.filterMap_map]
      exact (List.filterMap_congr fun parameter hparameter =>
        (h parameter hparameter).input?).trans (List.filterMap_some)
    have hlist : [] ++ joinWith ([] ++ ',' :: [' ']) ((first :: rest).map parameterText) =
        joinWith ", " ((first :: rest).map parameterText) := rfl
    rw [hlist] at hsplit
    rw [← hread, hsplit, hread, hinputs]

end Parameters

/-- Outcomes that are printed with bars between them are read back. -/
theorem parts_printed {outcomes : List Text} (hne : outcomes ≠ [])
    (h : ∀ outcome ∈ outcomes, IsOutcome outcome) :
    parts (' ' :: joinWith " | " outcomes) = outcomes := by
  have hsplit : (splitTop '|' ([' '] ++ joinWith ([' '] ++ '|' :: [' ']) outcomes)).map trim =
      outcomes.map trim := by
    apply map_trim_splitTop_joinWith (by decide) (by decide) isBlank_of_mem_space
      isBlank_of_mem_space isBlank_of_mem_space hne
    intro outcome houtcome
    exact ⟨(h outcome houtcome).whole, (h outcome houtcome).nested.1⟩
  have htrim : outcomes.map trim = outcomes :=
    (List.map_congr_left fun outcome houtcome => (h outcome houtcome).trimmed).trans (List.map_id _)
  exact hsplit.trans htrim

/-- What a printed line is read as. -/
theorem parse?_line {d : Draft} (h : d.WellFormed) (number : Nat) :
    parse? d.line number = some
      { name := d.name, signature := d.line, inputs := Dict.ofList d.parameters,
        outputs := outcomesOf d.outcomes, description := [], line := number } := by
  have hline : d.line = (d.name ++ [' ']) ++ '(' ::
      (joinWith ", " (d.parameters.map parameterText) ++
        ')' :: ' ' :: (d.sign.text ++ ' ' :: joinWith " | " d.outcomes)) := by
    simp [line]
  have hhead : '(' ∉ d.name ++ [' '] := by
    intro hmem
    rcases List.mem_append.mp hmem with hmem | hmem
    · cases h.name_chars '(' hmem
    · simp at hmem
  have hcut := cutAt_append hhead (joinWith ", " (d.parameters.map parameterText) ++
    ')' :: ' ' :: (d.sign.text ++ ' ' :: joinWith " | " d.outcomes))
  have hnested : IsNested (joinWith ", " (d.parameters.map parameterText)) := by
    apply isNested_joinWith (List.all_eq_true.mp (by decide))
    intro part hpart
    obtain ⟨parameter, hparameter, rfl⟩ := List.mem_map.mp hpart
    exact (h.parameters parameter hparameter).isNested
  have henclosed : ∀ tail,
      enclosed (joinWith ", " (d.parameters.map parameterText) ++ ')' :: tail) =
      some (joinWith ", " (d.parameters.map parameterText), tail) :=
    fun tail => enclosed_eq_some_iff.mpr ⟨hnested, ')', rfl, rfl⟩
  have hwords : (words (d.name ++ [' '])).getLast? = some d.name := by
    rw [words_name h.name_ne_nil h.not_isBlank]
    rfl
  have hoffered : outcomes? (trimStart (' ' :: (d.sign.text ++ ' ' :: joinWith " | " d.outcomes))) =
      some (' ' :: joinWith " | " d.outcomes) := by
    rw [trimStart_sign, outcomes?_sign]
  have houtputs : outputs (' ' :: joinWith " | " d.outcomes) = outcomesOf d.outcomes := by
    rw [outputs_eq_outcomesOf, parts_printed h.outcomes_ne_nil h.outcomes]
  simp only [parse?, Option.bind_eq_bind, Option.bind_eq_some_iff, Option.some.injEq]
  refine ⟨_, by rw [hline, hcut], _, henclosed _, _, hoffered, d.name, hwords, ?_⟩
  rw [houtputs, inputs_printed h.parameters]

/-- Outcomes with the keys that they have are the keyed outcomes. -/
theorem zip_eq_keyed {outcomes keys : List Text} {n : Nat} (htrim : ∀ p ∈ outcomes, trim p = p)
    (hkeys : List.Forall₂ (fun part key => IsKey part.1 part.2 key) (numberFrom n outcomes) keys) :
    keys.zip outcomes =
        (numberFrom n outcomes).map (fun part => (labelAt part.1 part.2, part.2)) ∧
      keys = (numberFrom n outcomes).map fun part => labelAt part.1 part.2 := by
  induction outcomes generalizing n keys with
  | nil =>
    cases hkeys
    exact ⟨rfl, rfl⟩
  | cons outcome rest ih =>
    obtain _ | ⟨hkey, hrest⟩ := hkeys
    obtain rfl := (isKey_iff (htrim outcome List.mem_cons_self)).mp hkey
    obtain ⟨hzip, hlabels⟩ := ih (fun p hp => htrim p (List.mem_cons_of_mem outcome hp)) hrest
    rw [numberFrom, List.map_cons, List.map_cons, List.zip_cons_cons, hzip, ← hlabels]
    exact ⟨rfl, rfl⟩

/-- A line that is written for a draft is read as it was meant: with its name, with its parameters
and their types, and with its outcomes by their keys. -/
theorem parse?_draft_line (d : Draft) (keys : List Text) (number : Nat) (h : d.WellFormed)
    (hkeys : List.Forall₂ (fun part key => IsKey part.1 part.2 key) (numberFrom 0 d.outcomes) keys)
    (hdistinct : keys.Nodup) :
    ∃ op, parse? d.line number = some op ∧ op.name = d.name ∧
      op.inputs.entries.Perm d.parameters ∧ op.outputs.entries.Perm (keys.zip d.outcomes) := by
  obtain ⟨hzip, hlabels⟩ := zip_eq_keyed (fun p hp => (h.outcomes p hp).trimmed) hkeys
  have hnodup : ((keyed d.outcomes).map Prod.fst).Nodup := by
    unfold keyed
    rw [List.map_map]
    rw [hlabels] at hdistinct
    exact hdistinct
  refine ⟨_, parse?_line h number, rfl, Dict.perm_entries_ofList h.distinct, ?_⟩
  rw [hzip]
  exact perm_entries_outcomesOf (fun p hp => ⟨(h.outcomes p hp).trimmed, (h.outcomes p hp).ne_nil⟩)
    hnodup

/-- A draft with types and outcomes that hold commas, bars and brackets of several shapes. -/
def indexing : Draft :=
  { name := "put"
    parameters := [("entries", "Map<Key, List<Item | Link>>"), ("owner", "User")]
    sign := .arrow
    outcomes :=
      ["\x7bstored: Set<Key>, at: (day: Day)\x7d", "Nothing", "(error: Full | Locked)[]"] }

/-- A signature with several parameters and outcomes is read back with its keys. -/
theorem indexing_read_back :
    indexing.WellFormed ∧
    ∃ op, parse? indexing.line 4 = some op ∧ op.name = "put" ∧
      op.inputs.entries.Perm indexing.parameters ∧
      op.outputs.entries.Perm ((["stored", "1", "error"] : List Text).zip indexing.outcomes) := by
  have hparameters : ∀ parameter ∈ indexing.parameters, IsParameter parameter := by
    intro parameter hmem
    simp only [indexing, List.mem_cons, List.not_mem_nil, or_false] at hmem
    rcases hmem with rfl | rfl <;>
      exact ⟨by decide, by decide, List.all_eq_true.mp (by decide), by decide, by decide +kernel,
        by decide +kernel⟩
  have houtcomes : ∀ outcome ∈ indexing.outcomes, IsOutcome outcome := by
    intro outcome hmem
    simp only [indexing, List.mem_cons, List.not_mem_nil, or_false] at hmem
    rcases hmem with rfl | rfl | rfl <;>
      exact ⟨by decide +kernel, by decide, by decide +kernel, by decide +kernel⟩
  have h : indexing.WellFormed :=
    { name_ne_nil := by decide
      name_chars := List.all_eq_true.mp (by decide)
      parameters := hparameters
      distinct := by decide
      outcomes_ne_nil := by decide
      outcomes := houtcomes }
  have hkeys : List.Forall₂ (fun part key => IsKey part.1 part.2 key)
      (numberFrom 0 indexing.outcomes) ["stored", "1", "error"] := by
    refine .cons ?_ (.cons ?_ (.cons ?_ .nil))
    all_goals exact (isKey_iff (by decide +kernel)).mpr (by decide +kernel)
  exact ⟨h, parse?_draft_line indexing _ 4 h hkeys (by decide)⟩

end Draft

end Signature

end Concordance
