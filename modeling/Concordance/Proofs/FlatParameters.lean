import Concordance.Proofs.Declarations

set_option autoImplicit false

/-!
# Flat parameter lists

A flat list is written entry by entry: a name, perhaps the mark of something optional, a type, and
perhaps a default. It is read by three splits, at the commas outside of brackets, at the first
equals sign and at the first colon outside of brackets. Each of them finds its own sign first, since
the signs that a type or a default holds stand inside of brackets or further behind (`flat_text`).
What is written is therefore read back, with or without a comma at the end (`parse_printed_list`).
-/

namespace Concordance

/-! ## Whole texts and their ends -/

namespace Text

variable {sep : Char} {s t : Text}

/-- The last part is joined behind the others, each with what stands between. -/
theorem joinWith_concat (between : Text) (parts : List Text) (last : Text) :
    joinWith between (parts ++ [last]) = parts.flatMap (· ++ between) ++ last := by
  unfold joinWith
  induction parts with
  | nil => simp
  | cons part parts ih =>
    rw [List.cons_append, List.intercalate_cons_of_ne_nil (by simp), ih, List.flatMap_cons]
    simp only [List.append_assoc]

/-- The beginning of a whole text is whole. -/
theorem IsWhole.of_append (h : IsWhole sep (s ++ t)) : IsWhole sep s := by
  rw [isWhole_iff] at h ⊢
  rintro front rest rfl
  exact h front (rest ++ t) (by simp)

/-- A separator at the end of a text would stand outside of its brackets. -/
theorem IsWhole.getLast?_ne (h : IsWhole sep t) (hsep : isPlainChar sep = true)
    (hlevel : level t = 0) : t.getLast? ≠ some sep := by
  intro hlast
  obtain ⟨front, rfl⟩ := List.getLast?_eq_some_iff.mp hlast
  have hsign : level [sep] = 0 := level_eq_zero_of_forall (by simpa using hsep)
  exact isWhole_iff.mp h front [] rfl (by simpa [hsign] using hlevel)

/-- Taking the blanks off the end first makes no difference to a trim. -/
theorem trim_trimEnd (t : Text) : trim (trimEnd t) = trim t := by
  obtain ⟨back, ht, hback⟩ := exists_trimEnd_append t
  conv_rhs => rw [ht, trim_append_right_of_isBlank hback]

/-- The blanks at the end are no brackets. -/
theorem level_trimEnd (t : Text) : level (trimEnd t) = level t := by
  obtain ⟨back, ht, hback⟩ := exists_trimEnd_append t
  have hflat : level back = 0 :=
    level_eq_zero_of_forall fun c hc => isPlainChar_of_isBlank (hback c hc)
  conv_rhs => rw [ht]
  simp [hflat]

/-- A whole text is so without the blanks at its end. -/
theorem IsWhole.trimEnd (h : IsWhole sep t) : IsWhole sep (trimEnd t) := by
  obtain ⟨back, ht, -⟩ := exists_trimEnd_append t
  rw [ht] at h
  exact h.of_append

/-- A text is cut at the first separator outside of brackets. -/
theorem cutTop_append (hsep : isPlainChar sep = true) (hs : IsWhole sep s) (hlevel : level s = 0)
    (t : Text) : cutTop sep (s ++ sep :: t) = some (s, t) := by
  unfold cutTop
  rw [splitTop_append hsep hs hlevel]
  cases hrest : splitTop sep t with
  | nil => exact absurd hrest (splitTopFrom_ne_nil sep 0 t)
  | cons part parts => simp [List.drop_append]

end Text

namespace Lexeme

open Text

/-- An identifier holds no brackets. -/
theorem IsIdentifier.isPlainChar {name : Text} (h : IsIdentifier name) :
    ∀ c ∈ name, isPlainChar c = true := by
  intro c hc
  cases hplain : Text.isPlainChar c with
  | true => rfl
  | false =>
    simp only [Text.isPlainChar, isOpening, isClosing, Bool.not_eq_false', Bool.or_eq_true,
      decide_eq_true_eq] at hplain
    rcases hplain with (((rfl | rfl) | rfl) | rfl) | (((rfl | rfl) | rfl) | rfl) <;>
      exact absurd hc (h.not_mem (by decide))

end Lexeme

namespace Parameters

open Text Lexeme

/-! ## Entries -/

/-- A parameter as it is written in a flat list. -/
structure Entry where
  name : Text
  /-- Whether the name carries the mark of something optional. -/
  marked : Bool
  type : Text
  /-- What stands behind the equals sign, if there is one. -/
  initial : Option Text

namespace Entry

/-- The name with its mark. -/
def label (e : Entry) : Text := e.name ++ onlyIf e.marked "?"

/-- The label and the type of a parameter. -/
def declaration (e : Entry) : Text := e.label ++ ':' :: ' ' :: e.type

/-- The parameter as it is written in the list. -/
def text (e : Entry) : Text :=
  e.declaration ++ e.initial.elim [] fun value => (" = " : Text) ++ value

/-- The parameter that an entry stands for. -/
def toParameter (e : Entry) : Parameter :=
  { name := e.name, type := e.type, optional := e.marked || e.initial.isSome }

/-- An entry can be told apart in a list: its name is an identifier, its type has no equals sign,
and no comma stands outside of the brackets of its type and its default. -/
@[mk_iff]
structure WellFormed (e : Entry) : Prop where
  name : IsIdentifier e.name
  type_ne_nil : e.type ≠ []
  type_trim : trim e.type = e.type
  type_equals : '=' ∉ e.type
  type_nested : IsNested e.type
  type_whole : IsWhole ',' e.type
  initial_nested : ∀ value ∈ e.initial, IsNested value
  initial_whole : ∀ value ∈ e.initial, IsWhole ',' value

instance (e : Entry) : Decidable e.WellFormed := decidable_of_iff' _ (wellFormed_iff e)

variable {e : Entry}

/-- A label is the name and perhaps a question mark. -/
theorem eq_of_mem_label {c : Char} (h : c ∈ e.label) : c ∈ e.name ∨ c = '?' := by
  rcases List.mem_append.mp h with hname | hmark
  · exact Or.inl hname
  · right
    cases hmarked : e.marked with
    | true => simpa [hmarked, onlyIf] using hmark
    | false => simp [hmarked, onlyIf] at hmark

/-! The name with its mark is told apart by the name alone. -/

/-- A label holds no brackets. -/
theorem isPlainChar_label (hname : IsIdentifier e.name) : ∀ c ∈ e.label, isPlainChar c = true := by
  intro c hc
  rcases eq_of_mem_label hc with hmem | rfl
  · exact hname.isPlainChar c hmem
  · decide

/-- A label holds nothing that no identifier holds, but for the question mark. -/
theorem not_mem_label (hname : IsIdentifier e.name) {c : Char}
    (hc : (startsIdentifier c || inIdentifier c) = false) (hmark : c ≠ '?') : c ∉ e.label := by
  intro hmem
  rcases eq_of_mem_label hmem with hmem | rfl
  · exact hname.not_mem hc hmem
  · exact hmark rfl

/-- A label is not empty. -/
theorem label_ne_nil (hname : IsIdentifier e.name) : e.label ≠ [] := by
  obtain ⟨c, rest, hcons, -⟩ := hname.exists_cons
  simp [label, hcons]

/-- A label has no blanks at its ends. -/
theorem trim_label (hname : IsIdentifier e.name) : trim e.label = e.label := by
  apply trim_eq_self_of_forall
  intro c hc
  rcases eq_of_mem_label hc with hmem | rfl
  · exact isBlank_eq_false_of_identifier (hname.char hmem)
  · decide

/-- A label is optional just if the entry is marked. -/
theorem isOptional_label (hname : IsIdentifier e.name) : isOptional e.label = e.marked := by
  unfold isOptional label
  cases e.marked with
  | true =>
    rw [endsWith_iff]
    exact List.suffix_append _ _
  | false =>
    rw [← Bool.not_eq_true, endsWith_iff]
    intro hsuffix
    have hmem : '?' ∈ e.name := by simpa [onlyIf] using hsuffix.mem (a := '?') (by decide)
    exact hname.not_mem (by decide) hmem

/-- A label without its mark is the name. -/
theorem withoutOptional_label (hname : IsIdentifier e.name) : withoutOptional e.label = e.name := by
  have hkept : trimEndOf (· = '?') e.name = e.name := by
    apply trimEndOf_eq_self_of_getLast?
    intro c hc
    have hne : c ≠ '?' := by
      rintro rfl
      exact hname.not_mem (by decide) (List.mem_of_getLast? hc)
    simpa using hne
  unfold withoutOptional label
  rw [trimEndOf_append, if_pos, hkept]
  cases e.marked <;> decide

/-- A label before a colon is annotated by what follows. -/
theorem annotation_label (hname : IsIdentifier e.name) (tail : Text) :
    annotation (e.label ++ ':' :: tail) = (e.label, some (trim tail)) := by
  have hwhole : IsWhole ':' e.label :=
    isWhole_of_not_mem (not_mem_label hname (by decide) (by decide))
  have hcut := cutTop_append (by decide) hwhole
    (level_eq_zero_of_forall (isPlainChar_label hname)) tail
  unfold annotation
  simp only [hcut, trim_label hname]

/-- A declaration has no blanks at its ends. -/
theorem WellFormed.trim_declaration (h : e.WellFormed) : trim e.declaration = e.declaration := by
  have hstart : trimStart (e.label ++ [':', ' ']) = e.label ++ [':', ' '] :=
    trimStartOf_append (label_ne_nil h.name) (trimStart_eq_self_of_trim (trim_label h.name))
  have hsplit : e.declaration = (e.label ++ [':', ' ']) ++ e.type := by simp [declaration]
  rw [hsplit]
  exact trim_append (by simp) hstart h.type_ne_nil (trimEnd_eq_self_of_trim h.type_trim)

/-- What is left of an entry behind its type, once blanks at the end are dropped. -/
def ending (e : Entry) : Text :=
  e.initial.elim [] fun value => ' ' :: '=' :: trimEnd (' ' :: value)

/-- An entry is trimmed to its declaration and what is left of its default. -/
theorem WellFormed.trim_text (h : e.WellFormed) : trim e.text = e.declaration ++ e.ending := by
  unfold text ending
  cases e.initial with
  | none => simpa using h.trim_declaration
  | some value =>
    exact trim_append_space_cons (by simp [declaration])
      (trimStart_eq_self_of_trim h.trim_declaration) (by decide) (' ' :: value)

/-- An entry says something when it is trimmed. -/
theorem WellFormed.trim_text_ne_nil (h : e.WellFormed) : trim e.text ≠ [] := by
  rw [h.trim_text]
  simp [declaration]

/-! ## One entry -/

/-- A declaration is annotated by its type and what follows. -/
theorem WellFormed.annotation_append (h : e.WellFormed) (tail : Text) :
    annotation (e.declaration ++ tail) = (e.label, some (trim (e.type ++ tail))) := by
  have hsplit : e.declaration ++ tail = e.label ++ ':' :: ' ' :: (e.type ++ tail) := by
    simp [declaration]
  rw [hsplit, annotation_label h.name, trim_cons_of_isBlank (by decide)]

/-- A declaration is annotated by its type. -/
theorem WellFormed.annotation_declaration (h : e.WellFormed) :
    annotation e.declaration = (e.label, some e.type) := by
  have hannotation := h.annotation_append []
  rwa [List.append_nil, List.append_nil, h.type_trim] at hannotation

/-- A declaration holds no equals sign. -/
theorem WellFormed.equals_not_mem (h : e.WellFormed) : '=' ∉ e.declaration := by
  simp only [declaration, List.mem_append, List.mem_cons, not_or]
  exact ⟨not_mem_label h.name (by decide) (by decide), by decide, by decide, h.type_equals⟩

/-- An entry is read as the parameter that it stands for. -/
theorem WellFormed.flat_text (h : e.WellFormed) : flat (trim e.text) = e.toParameter := by
  rw [h.trim_text]
  unfold flat ending toParameter
  cases e.initial with
  | none =>
    simp only [Option.elim_none, List.append_nil, cutAt_eq_none h.equals_not_mem,
      h.annotation_declaration, isOptional_label h.name, withoutOptional_label h.name, h.name.trim,
      Option.getD_some, h.type_trim, Option.isSome_none]
  | some value =>
    have hequals : '=' ∉ e.declaration ++ [' '] := by
      simpa using h.equals_not_mem
    have hcut := cutAt_append hequals (trimEnd (' ' :: value))
    rw [List.append_assoc] at hcut
    have htrim : trim (e.declaration ++ [' ']) = e.declaration := by
      rw [trim_append_of_isBlank (by decide), h.trim_declaration]
    simp only [Option.elim_some]
    rw [← List.singleton_append, hcut]
    simp only [htrim, h.annotation_declaration, isOptional_label h.name,
      withoutOptional_label h.name,
      h.name.trim, Option.getD_some, h.type_trim, Option.isSome_some]

/-- An entry has no comma outside of brackets and closes what it opens. -/
theorem WellFormed.isWhole_text (h : e.WellFormed) :
    IsWhole ',' e.text ∧ level e.text = 0 := by
  have hlabel : IsWhole ',' e.label :=
    isWhole_of_not_mem (not_mem_label h.name (by decide) (by decide))
  have hflat : level e.label = 0 := level_eq_zero_of_forall (isPlainChar_label h.name)
  have hfront : IsWhole ',' (e.label ++ [':', ' ']) := hlabel.append hflat (by decide)
  have hzero : level (e.label ++ [':', ' ']) = 0 := by rw [level_append, hflat]; rfl
  have hsplit : e.declaration = (e.label ++ [':', ' ']) ++ e.type := by simp [declaration]
  have hwhole : IsWhole ',' e.declaration := hsplit ▸ hfront.append hzero h.type_whole
  have hlevel : level e.declaration = 0 := by rw [hsplit, level_append, hzero, h.type_nested.1]; rfl
  unfold text
  cases hinitial : e.initial with
  | none => simpa using ⟨hwhole, hlevel⟩
  | some value =>
    have hvalue : IsWhole ',' ((" = " : Text) ++ value) :=
      IsWhole.append (by decide) (by decide) (h.initial_whole value hinitial)
    have hvalue_level : level ((" = " : Text) ++ value) = 0 := by
      rw [level_append, (h.initial_nested value hinitial).1]
      rfl
    refine ⟨hwhole.append hlevel hvalue, ?_⟩
    simpa [hlevel] using hvalue_level

/-- An entry that is alone in its list is no object pattern, unless its type is an object type. -/
theorem WellFormed.aggregate?_text (h : e.WellFormed) (htype : startsWith "\x7b" e.type = false) :
    aggregate? (trim e.text) = none := by
  have hpattern : startsWith "\x7b" e.label = false := by
    rw [← Bool.not_eq_true, startsWith_iff]
    rintro ⟨rest, hrest⟩
    refine not_mem_label h.name (c := '\x7b') (by decide) (by decide) ?_
    rw [hrest]
    exact List.mem_append_left _ (by decide)
  have hbrace : startsWith "\x7b" (trim (e.type ++ e.ending)) = false := by
    cases hsplit : e.type with
    | nil => exact absurd hsplit h.type_ne_nil
    | cons c rest =>
      have hc : isBlank c = false := isBlank_eq_false_of_trim (hsplit ▸ h.type_trim)
      have hne : '\x7b' ≠ c := by
        rintro rfl
        rw [hsplit] at htype
        cases htype
      rw [List.cons_append, trim_cons_of_neg hc]
      simp [startsWith, after?, hne]
  unfold aggregate?
  rw [h.trim_text, h.annotation_append]
  simp only [Option.getD_some, hbrace, hpattern, Bool.false_eq_true, if_false]

end Entry

/-! ## Lists of entries -/

/-- Entries with commas between them. -/
def printList (entries : List Entry) : Text := joinWith ", " (entries.map Entry.text)

section Printed

variable {init entries : List Entry} {last : Entry}

/-- The last entry is printed behind the others, each with a comma. -/
theorem printList_concat (init : List Entry) (last : Entry) :
    printList (init ++ [last]) =
      (init.map Entry.text).flatMap (· ++ (", " : Text)) ++ last.text := by
  unfold printList
  rw [List.map_append, List.map_singleton, joinWith_concat]

/-- A printed list has no blanks at its start. -/
theorem trimStart_printList (hne : entries ≠ []) (h : ∀ e ∈ entries, e.WellFormed) :
    trimStart (printList entries) = printList entries := by
  cases entries with
  | nil => exact absurd rfl hne
  | cons e rest =>
    have hfirst : ∃ tail, printList (e :: rest) = e.name ++ tail := by
      unfold printList joinWith Entry.text Entry.declaration Entry.label
      cases rest with
      | nil => exact ⟨_, by simp; rfl⟩
      | cons next rest =>
        rw [List.map_cons, List.map_cons, List.intercalate_cons_of_ne_nil (by simp)]
        simp only [List.append_assoc]
        exact ⟨_, rfl⟩
    obtain ⟨tail, htail⟩ := hfirst
    rw [htail]
    exact trimStart_append_of_identifier (h e List.mem_cons_self).name tail

/-- The commas that are dropped at the end of a list belong to none of its entries. -/
theorem trimEndOf_comma_append {t : Text} (hne : t ≠ []) (hwhole : IsWhole ',' t)
    (hlevel : level t = 0) (front : Text) : trimEndOf (· = ',') (front ++ t) = front ++ t := by
  apply trimEndOf_eq_self_of_getLast?
  intro c hc
  have hlast : t.getLast? = some c := by
    obtain ⟨d, hd⟩ := Option.ne_none_iff_exists'.mp (mt List.getLast?_eq_none_iff.mp hne)
    rw [List.getLast?_append, hd, Option.some_or] at hc
    rw [hd, hc]
  have hcomma : c ≠ ',' := by
    rintro rfl
    exact hwhole.getLast?_ne (by decide) hlevel hlast
  simpa using hcomma

/-- The list that is split: blanks and a comma at the end are dropped, and nothing else. -/
theorem trim_printList (h : ∀ e ∈ init ++ [last], e.WellFormed) (trailing : Bool) :
    trim (trimEndOf (· = ',') (trim (printList (init ++ [last]) ++ onlyIf trailing ","))) =
      joinWith ", " (init.map Entry.text ++ [trimEnd last.text]) := by
  have hlast : last.WellFormed := h last (by simp)
  obtain ⟨hwhole, hlevel⟩ := hlast.isWhole_text
  have htext : last.text ≠ [] := by simp [Entry.text, Entry.declaration]
  have hcut : trimEnd last.text ≠ [] := by
    intro hnil
    apply hlast.trim_text_ne_nil
    rw [← trim_trimEnd, hnil]
    rfl
  have hstart := trimStart_printList (by simp) h
  have htrim : trim (printList (init ++ [last])) =
      joinWith ", " (init.map Entry.text ++ [trimEnd last.text]) := by
    unfold trim
    rw [hstart, printList_concat, trimEnd, trimEndOf_append_of_ne_nil hcut, joinWith_concat]
    rfl
  cases trailing with
  | false =>
    have hcommas := trimEndOf_comma_append hcut hwhole.trimEnd (by rw [level_trimEnd, hlevel])
      ((init.map Entry.text).flatMap (· ++ (", " : Text)))
    simp only [onlyIf, Bool.false_eq_true, if_false, List.append_nil]
    rw [htrim, joinWith_concat, hcommas, ← joinWith_concat, ← htrim, trim_trim]
  | true =>
    have hne : printList (init ++ [last]) ≠ [] := by
      rw [printList_concat]
      simp [htext]
    have hcommas := trimEndOf_comma_append htext hwhole hlevel
      ((init.map Entry.text).flatMap (· ++ (", " : Text)))
    rw [← printList_concat] at hcommas
    simp only [onlyIf, if_true]
    rw [trim_append hne hstart (by decide) (by decide), trimEndOf_append, if_pos (by decide),
      hcommas, htrim]

/-- A printed list is split into its entries. -/
theorem map_trim_splitTop_printList (h : ∀ e ∈ init ++ [last], e.WellFormed) :
    (splitTop ',' (joinWith ", " (init.map Entry.text ++ [trimEnd last.text]))).map trim =
      (init ++ [last]).map fun e => trim e.text := by
  have hparts : ∀ part ∈ init.map Entry.text ++ [trimEnd last.text],
      IsWhole ',' part ∧ level part = 0 := by
    intro part hpart
    rcases List.mem_append.mp hpart with hpart | hpart
    · obtain ⟨e, he, rfl⟩ := List.mem_map.mp hpart
      exact (h e (List.mem_append_left _ he)).isWhole_text
    · obtain rfl := List.mem_singleton.mp hpart
      obtain ⟨hwhole, hlevel⟩ := (h last (by simp)).isWhole_text
      exact ⟨hwhole.trimEnd, by rw [level_trimEnd, hlevel]⟩
  have hsplit : (splitTop ',' ([] ++ joinWith ([] ++ ',' :: [' '])
      (init.map Entry.text ++ [trimEnd last.text]))).map trim =
        (init.map Entry.text ++ [trimEnd last.text]).map trim :=
    map_trim_splitTop_joinWith (by decide) (by decide) (by simp) (by simp [isBlank]) (by simp)
      (by simp) hparts
  rw [List.map_append, List.map_map, List.map_singleton, trim_trimEnd] at hsplit
  rw [List.map_append, List.map_singleton]
  exact hsplit

/-- A list that is written for some entries is read as their parameters, in order, with their names
and types; a parameter is optional just if it is marked or has a default. A comma may end the list,
and only an entry that is alone may not have a type that starts with a brace. -/
theorem parse_printed_list (entries : List Entry) (trailing : Bool) (hne : entries ≠ [])
    (h : ∀ e ∈ entries, e.WellFormed)
    (halone : ∀ e, entries = [e] → startsWith "\x7b" e.type = false) :
    parse (printList entries ++ onlyIf trailing ",") = entries.map Entry.toParameter := by
  obtain ⟨init, last, rfl⟩ := List.eq_nil_or_concat' entries |>.resolve_left hne
  have hsplit := map_trim_splitTop_printList h
  have hcount : (splitTop ',' (joinWith ", " (init.map Entry.text ++ [trimEnd last.text]))).length =
      (init ++ [last]).length := by
    rw [← List.length_map (f := trim), hsplit, List.length_map]
  have hkept : trimmedParts (splitTop ',' (joinWith ", " (init.map Entry.text ++
      [trimEnd last.text]))) = (init ++ [last]).map fun e => trim e.text := by
    unfold trimmedParts
    rw [hsplit, List.filter_eq_self]
    intro part hpart
    obtain ⟨e, he, rfl⟩ := List.mem_map.mp hpart
    simpa using (h e he).trim_text_ne_nil
  have hflat : ((init ++ [last]).map fun e => flat (trim e.text)) =
      (init ++ [last]).map Entry.toParameter :=
    List.map_congr_left fun e he => (h e he).flat_text
  have hlist : joinWith ", " (init.map Entry.text ++ [trimEnd last.text]) ≠ [] := by
    intro hnil
    rw [joinWith_concat, List.append_eq_nil_iff] at hnil
    apply (h last (by simp)).trim_text_ne_nil
    rw [← trim_trimEnd, hnil.2]
    rfl
  unfold parse
  simp only [trim_printList h, List.isEmpty_iff, hlist, if_false, hcount, hkept, List.map_map]
  cases init with
  | nil =>
    have hlast := h last (by simp)
    have hsingle : joinWith ", " (([] : List Entry).map Entry.text ++ [trimEnd last.text]) =
        trim last.text := by
      have hstart : trimStart last.text = last.text := by
        have hprinted := trimStart_printList (by simp) h
        rwa [printList_concat, List.map_nil, List.flatMap_nil, List.nil_append] at hprinted
      unfold trim
      rw [joinWith_concat, hstart]
      rfl
    have hnone := hlast.aggregate?_text (halone last rfl)
    rw [hsingle, hnone, List.nil_append, List.length_singleton, if_pos rfl, Option.getD_none]
    exact hflat
  | cons e rest =>
    have hmany : ((e :: rest) ++ [last]).length ≠ 1 := by simp
    rw [if_neg hmany, Option.getD_none]
    exact hflat

/-- A list with an object type, a default that holds commas and equals signs, and both marks. -/
def sampleEntries : List Entry :=
  [⟨"query", false, "\x7b owner: ID, tags: Map<string, ID> \x7d", none⟩,
    ⟨"limit", true, "number", some "(a == b) ? [1, 2] : c "⟩,
    ⟨"$order", true, "Order[]", none⟩]

/-- A list with an object type, a default and optional names is read back. -/
theorem sample_list_read_back :
    (∀ e ∈ sampleEntries, e.WellFormed) ∧
    printList sampleEntries ++ onlyIf true "," =
      ("query: \x7b owner: ID, tags: Map<string, ID> \x7d, " : Text) ++
        "limit?: number = (a == b) ? [1, 2] : c , $order?: Order[]," ∧
    parse (printList sampleEntries ++ onlyIf true ",") =
      [⟨"query", "\x7b owner: ID, tags: Map<string, ID> \x7d", false⟩, ⟨"limit", "number", true⟩,
        ⟨"$order", "Order[]", true⟩] := by
  have h : ∀ e ∈ sampleEntries, e.WellFormed := by decide +kernel
  refine ⟨h, by decide +kernel, ?_⟩
  exact parse_printed_list sampleEntries true (by decide) h (by simp [sampleEntries])

end Printed

end Parameters

end Concordance
