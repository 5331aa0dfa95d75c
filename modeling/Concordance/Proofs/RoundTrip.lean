import Concordance.Proofs.Printing

set_option autoImplicit false

/-!
# Reading a printed specification

Each part of a printed specification is read back on its own: prose from its one line, the state
entity by entity, and an operation from its signature and the remark below it. Put together along
the outline, a printed specification is read as it was, with its operations where they were printed.
-/

namespace Concordance

open Text Outline

namespace Specification

/-- Numbering keeps the texts. -/
@[simp] theorem text_numberedFrom (n : Nat) (ls : List Text) :
    (numberedFrom n ls).map Line.text = ls := by
  induction ls generalizing n with
  | nil => rfl
  | cons line rest ih => simp [ih]

/-- Lines that say something are all shown. -/
theorem filter_isShown {body : List Text} (h : ∀ line ∈ body, trim line ≠ []) (n : Nat) :
    (numberedFrom n body).filter isShown = numberedFrom n body := by
  induction body generalizing n with
  | nil => rfl
  | cons line rest ih =>
    have hline := h line List.mem_cons_self
    have hrest := ih (fun l hl => h l (List.mem_cons_of_mem _ hl)) (n + 1)
    rw [numberedFrom_cons, List.filter_cons_of_pos (by simp [isShown, hline]), hrest]

/-! ## Prose -/

/-- A trimmed text is read back as prose. -/
theorem prose_printed {text : Text} (h : trim text = text) (n : Nat) :
    prose ((numberedFrom n [text]).filter isShown) = text := by
  cases text with
  | nil => rfl
  | cons c rest =>
    rw [filter_isShown (by simp [h])]
    simp [prose, numberedFrom, numberFrom, h, joinWith]

/-! ## State -/

section State

variable {owner name type : Text} {n : Nat} {state : Dict (Dict Text)} {rest : List Line}

/-- A name that does not begin with a dash has none to take off. -/
theorem trimStartOf_dash (h : name.head? ≠ some '-') :
    trimStartOf (· = '-') name = name := by
  apply trimStartOf_eq_self_of_head?
  intro c hc
  have hne : c ≠ '-' := fun heq => h (heq ▸ hc)
  simpa using hne

/-- A line without a colon names an entity, by what stands before its opening braces. -/
theorem readState_label (entity : Option Text) (h : IsLabel name) :
    readState owner entity state (⟨n, name⟩ :: rest) =
      readState owner (some (trim (trimEndOf (· = '\x7b') name)))
        (addEntity state (trim (trimEndOf (· = '\x7b') name))) rest := by
  obtain ⟨htrim, hne, hcolon, hdash⟩ := h
  have htext : trim (trimStartOf (· = '-') (trim name)) = name := by
    rw [htrim, trimStartOf_dash hdash, htrim]
  rw [readState]
  simp only [htext, cutAt_eq_none hcolon]
  rw [if_neg (by simpa using hne)]

/-- A label without a brace at its end opens an entity. -/
theorem readState_entity (entity : Option Text) (h : IsLabel name)
    (hbrace : name.getLast? ≠ some '\x7b') :
    readState owner entity state (⟨n, name⟩ :: rest) =
      readState owner (some name) (addEntity state name) rest := by
  have hname : trim (trimEndOf (· = '\x7b') name) = name := by
    rw [trimEndOf_eq_self_of_getLast?, h.1]
    intro c hc
    have hc' : c ≠ '\x7b' := fun heq => hbrace (heq ▸ hc)
    simpa using hc'
  rw [readState_label entity h, hname]

/-- A printed type is followed by nothing and preceded by one space, which is all that is left if
there is no type. -/
theorem trim_trimEnd_space (h : trim type = type) : trim (trimEnd (' ' :: type)) = type := by
  by_cases hnil : type = []
  · subst hnil
    decide
  · have hend : trimEnd (' ' :: type) = ' ' :: type := by
      have htype : trimEndOf isBlank type = type := trimEnd_eq_self_of_trim h
      have happend := trimEndOf_append_of_ne_nil (p := isBlank) (by rwa [htype]) [' ']
      rwa [htype] at happend
    rw [hend, trim_cons_of_isBlank (by decide), h]

/-- A field line is trimmed to the name, a colon and its type. -/
theorem trim_field (htrim : trim name = name) (hne : name ≠ []) :
    trim (name ++ ": " ++ type) = name ++ ':' :: trimEnd (' ' :: type) := by
  have hend : trimEndOf isBlank (':' :: ' ' :: type) = ':' :: trimEnd (' ' :: type) :=
    trimEndOf_cons_of_neg (by decide)
  have hassoc : name ++ ": " ++ type = name ++ ':' :: ' ' :: type := by simp
  unfold trim
  rw [hassoc, trimStart, trimStartOf_append hne (trimStart_eq_self_of_trim htrim), trimEnd,
    trimEndOf_append_of_ne_nil (by simp [hend]), hend]

/-- A field line below an entity adds the field to it. -/
theorem readState_field {entity : Text} (h : IsLabel name) (htype : trim type = type) :
    readState owner (some entity) state (⟨n, name ++ ": " ++ type⟩ :: rest) =
      readState owner (some entity) (addField state entity name type) rest := by
  obtain ⟨htrim, hne, hcolon, hdash⟩ := h
  have hfield : trim (name ++ ": " ++ type) = name ++ ':' :: trimEnd (' ' :: type) :=
    trim_field htrim hne
  have htext : trim (trimStartOf (· = '-') (trim (name ++ ": " ++ type))) =
      name ++ ':' :: trimEnd (' ' :: type) := by
    rw [hfield, trimStartOf_append hne (trimStartOf_dash hdash), ← hfield, trim_trim]
  rw [readState]
  simp only [htext, cutAt_append hcolon, trim_trimEnd_space htype, htrim, Option.getD_some]
  rw [if_neg (by simp)]

end State

section Entities

variable (owner : Text) {name : Text} {state : Dict (Dict Text)}

/-- The line of a field. -/
def fieldLine (field : Text × Text) : Text := field.1 ++ ": " ++ field.2

/-- The state with fields of one entity added. -/
def addFields (state : Dict (Dict Text)) (entity : Text) (fields : List (Text × Text)) :
    Dict (Dict Text) :=
  fields.foldl (fun s field => addField s entity field.1 field.2) state

/-- Fields that are added to an entity are inserted into it one by one. -/
theorem addFields_insert (name : Text) (known : Dict Text) (fields : List (Text × Text)) :
    addFields (state.insert name known) name fields =
      state.insert name (fields.foldl (fun d e => d.insert e.1 e.2) known) := by
  induction fields generalizing known with
  | nil => rfl
  | cons field fields ih =>
    have hadd : addField (state.insert name known) name field.1 field.2 =
        state.insert name (known.insert field.1 field.2) := by
      unfold addField
      rw [Dict.get?_insert, Option.getD_some, Dict.insert_insert]
    rw [addFields, List.foldl_cons, hadd, List.foldl_cons, ← ih]
    rfl

/-- Field lines below an entity add their fields to it. -/
theorem readState_fields {fields : List (Text × Text)} {ls : List Line}
    (h : ∀ field ∈ fields, IsLabel field.1 ∧ trim field.2 = field.2)
    (hls : ls.map Line.text = fields.map fieldLine)
    (rest : List Line) :
    readState owner (some name) state (ls ++ rest) =
      readState owner (some name) (addFields state name fields) rest := by
  induction fields generalizing ls state with
  | nil =>
    obtain rfl := List.map_eq_nil_iff.mp hls
    rfl
  | cons field fields ih =>
    obtain ⟨hlabel, htype⟩ := h field List.mem_cons_self
    obtain ⟨⟨n, text⟩, ls, rfl, rfl, hrest⟩ := List.map_eq_cons_iff.mp hls
    rw [List.cons_append, fieldLine, readState_field hlabel htype,
      ih (fun f hf => h f (List.mem_cons_of_mem _ hf)) hrest]
    rfl

/-- Entities in ascending order, each behind all that are known, are read as they were printed. -/
theorem readState_entities {entities : List (Text × Dict Text)}
    (hentities : ∀ entity ∈ entities, IsLabel entity.1 ∧ entity.1.getLast? ≠ some '\x7b')
    (hfields : ∀ entity ∈ entities, ∀ field ∈ entity.2.entries,
      IsLabel field.1 ∧ trim field.2 = field.2)
    (hascending : Ascending (state.entries ++ entities)) (current : Option Text) (n : Nat) :
    readState owner current state (numberedFrom n (entities.flatMap entityLines)) =
      entities.foldl (fun d e => d.insert e.1 e.2) state := by
  induction entities generalizing state current n with
  | nil => cases current <;> rfl
  | cons entity entities ih =>
    obtain ⟨hlabel, hbrace⟩ := hentities entity List.mem_cons_self
    have hlt : ∀ e ∈ state.entries, e.1 < entity.1 := by
      intro e he
      exact (List.pairwise_append.mp hascending).2.2 e he entity List.mem_cons_self
    -- Behind all others it is a new one, which starts without fields.
    have hadd : addEntity state entity.1 = state.insert entity.1 .empty := by
      unfold addEntity
      rw [Dict.get?_eq_none_of_forall_lt hlt, Option.getD_none]
    have hall : entity.2.entries.foldl (fun d e => d.insert e.1 e.2) .empty = entity.2 :=
      Dict.ofList_entries entity.2
    have hnext : Ascending ((state.insert entity.1 entity.2).entries ++ entities) := by
      rw [Dict.entries_insert_of_forall_lt hlt, List.append_assoc]
      exact hascending
    have hlines : entityLines entity = entity.1 :: entity.2.entries.map fieldLine := rfl
    rw [List.flatMap_cons, numberedFrom_append, hlines, numberedFrom_cons, List.cons_append,
      readState_entity current hlabel hbrace, hadd,
      readState_fields owner (hfields entity List.mem_cons_self) (text_numberedFrom _ _),
      addFields_insert, hall, List.foldl_cons]
    exact ih (fun e he => hentities e (List.mem_cons_of_mem _ he))
      (fun e he => hfields e (List.mem_cons_of_mem _ he)) hnext _ _

end Entities

/-- Every line of a printed state says something. -/
theorem trim_ne_nil_of_mem_entityLines {s : Specification} (h : s.Printable) :
    ∀ line ∈ s.partLines .state, trim line ≠ [] := by
  intro line hline
  obtain ⟨entity, hentity, hline⟩ := List.mem_flatMap.mp hline
  rcases List.mem_cons.mp hline with rfl | hline
  · obtain ⟨⟨htrim, hne, -⟩, -⟩ := h.entities entity hentity
    rwa [htrim]
  · obtain ⟨field, hfield, rfl⟩ := List.mem_map.mp hline
    obtain ⟨⟨htrim, hne, -⟩, -⟩ := h.fields entity hentity field hfield
    rw [trim_field htrim hne]
    simp

/-- The state is read back from its lines. -/
theorem state_printed {s : Specification} (h : s.Printable) (owner : Text) (n : Nat) :
    readState owner none .empty ((numberedFrom n (s.partLines .state)).filter isShown) =
      s.state := by
  rw [filter_isShown (trim_ne_nil_of_mem_entityLines h)]
  have hascending : Ascending ((Dict.empty : Dict (Dict Text)).entries ++ s.state.entries) :=
    s.state.ascending
  have hread := readState_entities owner h.entities h.fields hascending none n
  exact hread.trans (Dict.ofList_entries s.state)

/-! ## Operations -/

/-- Operations at the lines on which they are printed, from a given line on. -/
def placedFrom : (n : Nat) → List Operation → List Operation
  | _, [] => []
  | n, op :: rest => { op with line := n } :: placedFrom (n + (operationLines op).length) rest

/-- The number of a signature does not change how it is read. -/
theorem parse?_renumber {line : Text} {m : Nat} {op : Operation}
    (h : Signature.parse? line m = some op) (n : Nat) :
    Signature.parse? line n = some { op with line := n } := by
  simp only [Signature.parse?, Option.bind_eq_bind, Option.bind_eq_some_iff,
    Option.some.injEq] at h ⊢
  obtain ⟨cut, hcut, inner, hinner, alternatives, halternatives, name, hname, rfl⟩ := h
  exact ⟨cut, hcut, inner, hinner, alternatives, halternatives, name, hname, rfl⟩

/-- A trimmed line that does not begin with a dash is no remark. -/
theorem remark?_eq_none {text : Text} (htrim : trim text = text) (hdash : text.head? ≠ some '-')
    (n : Nat) : remark? ⟨n, text⟩ = none := by
  have hafter : after? "-" text = none := by
    rw [← Option.not_isSome_iff_eq_none]
    intro hsome
    obtain ⟨rest, rfl⟩ := startsWith_iff.mp hsome
    exact hdash rfl
  unfold remark?
  simp only [htrim, hafter, Option.map_none]

/-- A description behind a dash is read back as a remark. -/
theorem remark?_printed {description : Text} (htrim : trim description = description)
    (hne : description ≠ []) (n : Nat) :
    remark? ⟨n, ("- " : Text) ++ description⟩ = some description := by
  have htext : trim (("- " : Text) ++ description) = ("- " : Text) ++ description :=
    trim_append (by decide) (by decide) hne (trimEnd_eq_self_of_trim htrim)
  have hafter : after? "-" (("- " : Text) ++ description) = some (' ' :: description) :=
    after?_eq_some_iff.mpr rfl
  have hrest : trim (' ' :: description) = description := by
    rw [trim_cons_of_isBlank (by decide), htrim]
  unfold remark?
  simp only [htext, hafter, Option.map_some, hrest]

section Operations

variable {ops : List Operation}
  (h : ∀ op ∈ ops, IsDeclared op ∧ trim op.description = op.description)
include h

/-- A list of operations does not begin with remarks. -/
theorem remarks_printed (n : Nat) : remarks (numberedFrom n (ops.flatMap operationLines)) = [] := by
  cases ops with
  | nil => rfl
  | cons op rest =>
    obtain ⟨⟨htrim, hdash, -⟩, -⟩ := h op List.mem_cons_self
    rw [List.flatMap_cons, operationLines, List.cons_append, numberedFrom_cons, remarks,
      remark?_eq_none htrim hdash]

/-- Operations are read back from their lines, placed where they are printed. -/
theorem readOperations_printed (n : Nat) :
    readOperations (numberedFrom n (ops.flatMap operationLines)) = placedFrom n ops := by
  induction ops generalizing n with
  | nil => rfl
  | cons op rest ih =>
    obtain ⟨⟨htrim, hdash, hparse⟩, hdescription⟩ := h op List.mem_cons_self
    have hrest := fun o ho => h o (List.mem_cons_of_mem op ho)
    have hsignature := remark?_eq_none htrim hdash n
    rw [List.flatMap_cons, numberedFrom_append, placedFrom]
    by_cases hnil : op.description = []
    · have hlines : operationLines op = [op.signature] := by simp [operationLines, hnil]
      rw [hlines]
      change readOperations
        (⟨n, op.signature⟩ :: numberedFrom (n + 1) (rest.flatMap operationLines)) = _
      rw [readOperations, hsignature]
      -- The next line is another signature, so there is no remark.
      simp only [htrim, parse?_renumber hparse n, remarks_printed hrest, ih hrest]
      simp [hnil]
    · have hlines : operationLines op = [op.signature, ("- " : Text) ++ op.description] := by
        simp [operationLines, hnil]
      have hremark := remark?_printed hdescription hnil (n + 1)
      rw [hlines]
      change readOperations (⟨n, op.signature⟩ :: ⟨n + 1, ("- " : Text) ++ op.description⟩ ::
        numberedFrom (n + 2) (rest.flatMap operationLines)) = _
      rw [readOperations, hsignature]
      simp only [htrim, parse?_renumber hparse n, remarks, readOperations, hremark,
        remarks_printed hrest, ih hrest]
      simp [addRemark]

/-- Every line of printed operations says something. -/
theorem trim_ne_nil_of_mem_operationLines :
    ∀ line ∈ ops.flatMap operationLines, trim line ≠ [] := by
  intro line hline
  obtain ⟨op, hop, hline⟩ := List.mem_flatMap.mp hline
  obtain ⟨⟨htrim, -, hparse⟩, hdescription⟩ := h op hop
  unfold operationLines at hline
  rcases List.mem_cons.mp hline with rfl | hline
  · rw [htrim]
    intro hnil
    rw [hnil] at hparse
    cases hparse
  · split at hline
    · simp at hline
    · next hne =>
      obtain rfl := List.mem_singleton.mp hline
      rw [trim_append (by decide) (by decide) hne (trimEnd_eq_self_of_trim hdescription)]
      simp

/-- Operations are read back from those of their lines that are shown. -/
theorem operations_printed (n : Nat) :
    readOperations ((numberedFrom n (ops.flatMap operationLines)).filter isShown) =
      placedFrom n ops := by
  rw [filter_isShown (trim_ne_nil_of_mem_operationLines h), readOperations_printed h]

end Operations

/-! ## The whole specification -/

/-- The number of the first line below the heading of a part. -/
def firstLine (s : Specification) (part : Part) : Nat :=
  3 + ((Part.inOrder.takeWhile (· ≠ part)).flatMap fun p => p.heading :: s.partLines p).length

/-- A placed operation stands on its line. -/
theorem getElem?_of_mem_placedFrom {ops : List Operation} {op : Operation} {n : Nat}
    (h : op ∈ placedFrom n ops) :
    n ≤ op.line ∧ (ops.flatMap operationLines)[op.line - n]? = some op.signature := by
  induction ops generalizing n with
  | nil => cases h
  | cons first rest ih =>
    rw [List.flatMap_cons]
    rcases List.mem_cons.mp h with rfl | h
    · simp [operationLines]
    · obtain ⟨hline, hsignature⟩ := ih h
      refine ⟨by omega, ?_⟩
      rw [List.getElem?_append_right (by omega), Nat.sub_sub]
      exact hsignature

/-- A line of a part stands behind the first line of that part. -/
theorem getElem?_printedLines (s : Specification) (part : Part) {k : Nat} {line : Text}
    (h : (s.partLines part)[k]? = some line) :
    s.printedLines[s.firstLine part - 1 + k]? = some line := by
  have hparts : ∃ later, Part.inOrder = Part.inOrder.takeWhile (· ≠ part) ++ part :: later := by
    cases part <;> exact ⟨_, rfl⟩
  obtain ⟨later, hparts⟩ := hparts
  have hk : k < (s.partLines part).length := (List.getElem?_eq_some_iff.mp h).1
  unfold printedLines firstLine
  generalize Part.inOrder.takeWhile (· ≠ part) = earlier at hparts ⊢
  have hindex : 3 + (earlier.flatMap fun p => p.heading :: s.partLines p).length - 1 + k =
      (earlier.flatMap fun p => p.heading :: s.partLines p).length + (k + 1) + 1 := by
    omega
  rw [hparts, List.flatMap_append, List.flatMap_cons, hindex, List.getElem?_cons_succ,
    List.getElem?_append_right (by omega), Nat.add_sub_cancel_left, List.cons_append,
    List.getElem?_cons_succ, List.getElem?_append_left hk]
  exact h

/-- The blocks of a printed specification add up to it, with its operations placed. -/
theorem foldl_addBlock_printed {s : Specification} (h : s.Printable) (path : Text) :
    (s.printedBlocks 2 Part.inOrder).foldl addBlock { blank path with name := s.name } =
      { s with
        actions := placedFrom (s.firstLine .actions) s.actions
        queries := placedFrom (s.firstLine .queries) s.queries
        path := path } := by
  have hpurpose : ∀ n, prose ((numberedFrom n (s.partLines .purpose)).filter isShown) = s.purpose :=
    prose_printed h.purpose
  have hactions : ∀ n, readOperations ((numberedFrom n (s.partLines .actions)).filter isShown) =
      placedFrom n s.actions :=
    operations_printed fun op hop => h.operations op (List.mem_append_left _ hop)
  have hqueries : ∀ n, readOperations ((numberedFrom n (s.partLines .queries)).filter isShown) =
      placedFrom n s.queries :=
    operations_printed fun op hop => h.operations op (List.mem_append_right _ hop)
  have hprinciple :
      ∀ n, prose ((numberedFrom n (s.partLines .principle)).filter isShown) = s.principle :=
    prose_printed h.principle
  simp only [printedBlocks, Part.inOrder, List.foldl_cons, List.foldl_nil, addBlock, blank,
    hpurpose, state_printed h, hactions, hqueries, hprinciple, List.nil_append]
  have hfirst : s.firstLine .actions =
      2 + 1 + (s.partLines .purpose).length + 1 + (s.partLines .state).length + 1 := by
    simp +arith [firstLine, Part.inOrder]
  have hnext : s.firstLine .queries = s.firstLine .actions + (s.partLines .actions).length + 1 := by
    simp +arith [firstLine, Part.inOrder]
  rw [hnext, hfirst]

/-- The signature of a placed operation stands on its line of the printed text. -/
theorem getElem?_lines_print {s : Specification} (h : s.Printable) (part : Part)
    {ops : List Operation} (hops : s.partLines part = ops.flatMap operationLines) :
    ∀ op ∈ placedFrom (s.firstLine part) ops,
      0 < op.line ∧ (lines s.print)[op.line - 1]? = some op.signature := by
  intro op hop
  obtain ⟨hline, hsignature⟩ := getElem?_of_mem_placedFrom hop
  have hfirst : 3 ≤ s.firstLine part := Nat.le_add_right _ _
  have hindex : s.firstLine part - 1 + (op.line - s.firstLine part) = op.line - 1 := by omega
  rw [lines_print h, ← hindex]
  exact ⟨by omega, getElem?_printedLines s part (by rw [hops]; exact hsignature)⟩

/-- A printed specification is read as it was, save that each operation is at the line that its
signature is printed on. -/
theorem read_print (s : Specification) (path : Text) (h : s.Printable) :
    read s.print path =
      { s with
        actions := placedFrom (s.firstLine .actions) s.actions
        queries := placedFrom (s.firstLine .queries) s.queries
        path := path } ∧
    ∀ op ∈ (read s.print path).actions ++ (read s.print path).queries,
      0 < op.line ∧ (lines s.print)[op.line - 1]? = some op.signature := by
  have hread : read s.print path =
      (s.printedBlocks 2 Part.inOrder).foldl addBlock { blank path with name := s.name } := by
    unfold read
    rw [ofText_print h]
    rfl
  rw [hread, foldl_addBlock_printed h]
  refine ⟨rfl, ?_⟩
  intro op hop
  rcases List.mem_append.mp hop with hop | hop
  · exact getElem?_lines_print h .actions rfl op hop
  · exact getElem?_lines_print h .queries rfl op hop

/-- A specification of labels, with a remark on one of its two actions, and with an entity that has
no fields. -/
def labeling : Specification :=
  { name := "Labeling"
    purpose := "keep items in categories"
    state := .ofList [
      ("Item", .empty),
      ("Label", .ofList [("color", ""), ("items", "set Item")])]
    actions := [
      { name := "create", signature := "create (name: String, color: String) : \x7blabel: Label\x7d"
        inputs := .ofList [("name", "String"), ("color", "String")]
        outputs := .ofList [("label", "\x7blabel: Label\x7d")]
        description := "adds a label without items", line := 1 },
      { name := "delete", signature := "delete (label: Label) : Empty | \x7berror: String\x7d"
        inputs := .ofList [("label", "Label")]
        outputs := .ofList [("0", "Empty"), ("error", "\x7berror: String\x7d")]
        description := [], line := 1 }]
    queries := [
      { name := "_all", signature := "_all () : Label[]", inputs := .empty
        outputs := .ofList [("0", "Label[]")], description := [], line := 1 }]
    principle := "a created label can be found"
    path := [] }

/-- A specification with all parts is read back from what is printed for it. -/
theorem labeling_read_back :
    labeling.Printable ∧
    ∃ actions queries, read labeling.print "labels" =
      { labeling with actions := actions, queries := queries, path := "labels" } ∧
      actions.map Operation.line = [10, 12] ∧ queries.map Operation.line = [14] := by
  have h : labeling.Printable :=
    { name_ne_nil := by decide +kernel
      name_chars := List.all_eq_true.mp (by decide +kernel)
      purpose := by decide +kernel
      principle := by decide +kernel
      entities := by decide +kernel
      fields := by decide +kernel
      operations := by decide +kernel
      oneLine := by intro part; cases part <;> decide +kernel
      plain := by intro part; cases part <;> decide +kernel }
  exact ⟨h, _, _, (read_print labeling "labels" h).1, by decide +kernel, by decide +kernel⟩

end Specification

end Concordance
