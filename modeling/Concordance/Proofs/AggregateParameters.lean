import Concordance.Proofs.FlatParameters

set_option autoImplicit false

/-!
# Aggregate parameters

A single object pattern stands for the fields of its type. Commas and colons in the pattern and in
the type are inside of braces, so the list is one part and is cut between the two
(`parse_printAggregate`). The fields are then split twice: at every semicolon, wherever it stands,
and at commas outside of brackets. A field with an object type of several fields has a semicolon
inside of brackets, and there the first split cuts the field itself. What is written is read back
just if no type holds a semicolon, and otherwise the first type that does is cut short
(`aggregate_read_back_iff`).
-/

namespace Concordance

/-! ## Braces around a text -/

namespace Text

variable {sep : Char} {inner : Text}

/-- Braces around a nested text close what they open. -/
theorem level_braced (h : IsNested inner) : level ('\x7b' :: (inner ++ ['\x7d'])) = 0 := by
  rw [level_cons, level_append, h.1]
  rfl

/-- Braces around a text leave no blanks at its ends. -/
theorem trim_within_braces (inner : Text) :
    trim ('\x7b' :: (inner ++ ['\x7d'])) = '\x7b' :: (inner ++ ['\x7d']) := by
  rw [← List.cons_append]
  exact trim_append (by simp) (trimStartOf_cons_of_neg (by decide)) (by simp) (by decide)

/-- Inside of braces a nested text has no separator outside of brackets. -/
theorem isWhole_braced (hsep : isPlainChar sep = true) (h : IsNested inner) :
    IsWhole sep ('\x7b' :: (inner ++ ['\x7d'])) := by
  rw [isWhole_iff]
  intro front rest hsplit
  cases front with
  | nil =>
    obtain ⟨rfl, -⟩ := List.cons.inj hsplit
    cases hsep
  | cons c front =>
    obtain ⟨rfl, hinner⟩ := List.cons.inj hsplit
    have hbegins : front <+: inner := by
      rcases List.append_eq_append_iff.mp hinner with ⟨more, rfl, hmore⟩ | ⟨more, rfl, -⟩
      · cases more with
        | nil =>
          rw [List.append_nil]
        | cons d more =>
          obtain ⟨-, hnil⟩ := List.cons.inj hmore
          simp at hnil
      · exact List.prefix_append front more
    have hpos := h.2 front ((List.mem_inits front inner).mpr hbegins)
    have hopen : level ['\x7b'] = 1 := rfl
    rw [level_cons, hopen]
    omega

/-- A text without the separator behind a whole one leaves it whole. -/
theorem IsWhole.append_of_not_mem {s t : Text} (hs : IsWhole sep s) (ht : sep ∉ t) :
    IsWhole sep (s ++ t) := by
  rw [isWhole_iff] at hs ⊢
  intro front rest hsplit
  rcases List.append_eq_append_iff.mp hsplit with ⟨more, -, rfl⟩ | ⟨more, rfl, hmore⟩
  · simp at ht
  · cases more with
    | nil =>
      rw [List.nil_append] at hmore
      simp [← hmore] at ht
    | cons c more =>
      obtain ⟨rfl, -⟩ := List.cons.inj hmore
      exact hs front more rfl

end Text

namespace Parameters

open Text Lexeme

/-! ## Fields and how they are written -/

/-- A parameter as an entry without a default. -/
def entryOf (p : Parameter) : Entry := ⟨p.name, p.optional, p.type, none⟩

/-- A field of an object type as it is written: `name: Type` or `name?: Type`. -/
def fieldText (p : Parameter) : Text := (entryOf p).declaration

/-- The fields with semicolons between them. -/
def innerText (ps : List Parameter) : Text := ' ' :: (joinWith "; " (ps.map fieldText) ++ " ")

/-- The names of parameters, as the pattern of an object lists them. -/
def namesText (ps : List Parameter) : Text :=
  ' ' :: (joinWith ", " (ps.map Parameter.name) ++ " ")

/-- An object pattern with the names of some fields, and their object type. -/
def printAggregate (ps : List Parameter) : Text :=
  '\x7b' :: (namesText ps ++ ['\x7d']) ++ ':' :: ' ' :: '\x7b' :: (innerText ps ++ ['\x7d'])

/-- A field can be declared: its name is an identifier, and its type is nested and has no comma
outside of brackets. -/
@[mk_iff]
structure IsObjectField (p : Parameter) : Prop where
  name : IsIdentifier p.name
  type_ne_nil : p.type ≠ []
  type_trim : trim p.type = p.type
  type_nested : IsNested p.type
  type_whole : IsWhole ',' p.type

instance (p : Parameter) : Decidable (IsObjectField p) := decidable_of_iff' _ (isObjectField_iff p)

/-- The fields that the text inside of an object type declares. -/
def fieldsIn (inner : Text) : List Parameter :=
  (trimmedParts ((inner.splitOn ';').flatMap (splitTop ','))).map field

variable {p : Parameter} {ps front back : List Parameter} {s t : Text}

/-! ## The two splits -/

/-- The fields of an object type are those inside of its braces. -/
theorem fields_braced (inner : Text) : fields ('\x7b' :: (inner ++ ['\x7d'])) = fieldsIn inner := by
  have hafter : after? "\x7b" ('\x7b' :: (inner ++ ['\x7d'])) = some (inner ++ ['\x7d']) := rfl
  have hbefore : before? "\x7d" (inner ++ ['\x7d']) = some inner := before?_append inner ['\x7d']
  unfold fields fieldsIn
  simp only [trim_within_braces, hafter, Option.bind_some, hbefore, Option.getD_some]

/-- At a semicolon the fields on both sides are read on their own. -/
theorem fieldsIn_append (hs : ';' ∉ s) (t : Text) :
    fieldsIn (s ++ ';' :: t) = fieldsIn s ++ fieldsIn t := by
  unfold fieldsIn trimmedParts
  rw [splitOn_append_cons hs, splitOn_eq_singleton hs, List.flatMap_cons,
    List.flatMap_singleton, List.map_append, List.filter_append, List.map_append]

section Piece

variable (hname : IsIdentifier (entryOf p).name)

include hname

/-- A field behind a space is trimmed to its label, with the tail trimmed at its end. -/
theorem trim_label_cons (tail : Text) :
    trim (' ' :: ((entryOf p).label ++ ':' :: tail)) =
      (entryOf p).label ++ ':' :: trimEnd tail := by
  have hcolon : trimEndOf isBlank (':' :: tail) = ':' :: trimEnd tail :=
    trimEndOf_cons_of_neg (by decide)
  have hstart := trimStart_eq_self_of_trim (Entry.trim_label hname)
  rw [trim_cons_of_isBlank (by decide)]
  unfold trim trimStart
  rw [trimStartOf_append (Entry.label_ne_nil hname) hstart, trimEnd,
    trimEndOf_append_of_ne_nil (by rw [hcolon]; exact List.cons_ne_nil _ _), hcolon]

/-- A field is read from its label and the type behind the colon. -/
theorem field_label_cons (tail : Text) :
    field ((entryOf p).label ++ ':' :: tail) = { p with type := trim tail } := by
  unfold field
  simp only [Entry.annotation_label hname, Entry.withoutOptional_label hname,
    Entry.isOptional_label hname, Option.getD_some]
  rfl

/-- A piece with the beginning of a field is read as a field with that much of its type. -/
theorem fieldsIn_field {type blanks : Text} (hsemicolon : ';' ∉ type) (hwhole : IsWhole ',' type)
    (hblanks : ∀ c ∈ blanks, isBlank c = true) :
    fieldsIn (' ' :: ((entryOf p).label ++ ':' :: ' ' :: (type ++ blanks))) =
      [{ p with type := trim type }] := by
  have habsent : ∀ c, isBlank c = false → c ∉ blanks := by
    intro c hc hmem
    rw [hblanks c hmem] at hc
    cases hc
  have hone : ';' ∉ ' ' :: ((entryOf p).label ++ ':' :: ' ' :: (type ++ blanks)) := by
    have hlabel : ';' ∉ (entryOf p).label := Entry.not_mem_label hname (by decide) (by decide)
    simp [hlabel, hsemicolon, habsent ';' (by decide)]
  have hpart : IsWhole ',' (' ' :: ((entryOf p).label ++ ':' :: ' ' :: (type ++ blanks))) := by
    have hlabel : ',' ∉ (entryOf p).label := Entry.not_mem_label hname (by decide) (by decide)
    have hfront : IsWhole ',' (' ' :: ((entryOf p).label ++ [':', ' '])) :=
      isWhole_of_not_mem (by simp [hlabel])
    have hlevel : level (' ' :: ((entryOf p).label ++ [':', ' '])) = 0 := by
      rw [level_cons, level_append, level_eq_zero_of_forall (Entry.isPlainChar_label hname)]
      rfl
    have hall := hfront.append hlevel (hwhole.append_of_not_mem (habsent ',' (by decide)))
    simpa using hall
  have htype : trim (trimEnd (' ' :: (type ++ blanks))) = trim type := by
    rw [trim_trimEnd, trim_cons_of_isBlank (by decide), trim_append_right_of_isBlank hblanks]
  unfold fieldsIn trimmedParts
  rw [splitOn_eq_singleton hone, List.flatMap_singleton,
    splitTop_eq_singleton (by decide) hpart, List.map_singleton, trim_label_cons hname,
    List.filter_cons_of_pos (by simp), List.filter_nil, List.map_singleton, field_label_cons hname,
    htype]

/-- A field without a semicolon is read alone, with its type trimmed. -/
theorem fieldsIn_field_alone {type : Text} (hsemicolon : ';' ∉ type) (hwhole : IsWhole ',' type) :
    fieldsIn (' ' :: ((entryOf p).label ++ ':' :: ' ' :: type)) =
      [{ p with type := trim type }] := by
  have hread := fieldsIn_field hname hsemicolon hwhole (List.forall_mem_nil _)
  rwa [List.append_nil] at hread

end Piece

/-! ## From field to field -/

/-- A field is its label, a colon and its type. -/
theorem fieldText_eq (p : Parameter) :
    fieldText p = (entryOf p).label ++ ':' :: ' ' :: p.type := rfl

/-- The first field is divided from the others by a semicolon. -/
theorem innerText_cons (p : Parameter) (hback : back ≠ []) :
    innerText (p :: back) = (' ' :: fieldText p) ++ ';' :: innerText back := by
  have hjoin : joinWith "; " (fieldText p :: back.map fieldText) =
      fieldText p ++ "; " ++ joinWith "; " (back.map fieldText) := by
    unfold joinWith
    rw [List.intercalate_cons_of_ne_nil (by simpa using hback), List.append_assoc]
  unfold innerText
  rw [List.map_cons, hjoin]
  simp

/-- However many fields follow, the text begins with the first of them. -/
theorem exists_innerText_cons (p : Parameter) (back : List Parameter) :
    ∃ rest, innerText (p :: back) = (' ' :: fieldText p) ++ rest := by
  cases back with
  | nil => exact ⟨" ", by simp [innerText, joinWith]⟩
  | cons q back => exact ⟨_, innerText_cons p (List.cons_ne_nil q back)⟩

/-- Fields without semicolons in their types are read one by one. -/
theorem fieldsIn_innerText_append (hback : back ≠ []) (hfields : ∀ p ∈ front, IsObjectField p)
    (hclean : ∀ p ∈ front, ';' ∉ p.type) :
    fieldsIn (innerText (front ++ back)) = front ++ fieldsIn (innerText back) := by
  induction front with
  | nil => rfl
  | cons p front ih =>
    have hrest := ih (fun q hq => hfields q (List.mem_cons_of_mem p hq))
      (fun q hq => hclean q (List.mem_cons_of_mem p hq))
    have hp := hfields p List.mem_cons_self
    have hsemicolon := hclean p List.mem_cons_self
    have hpiece : ';' ∉ ' ' :: fieldText p := by
      have hlabel : ';' ∉ (entryOf p).label := Entry.not_mem_label hp.name (by decide) (by decide)
      simp [fieldText_eq, hlabel, hsemicolon]
    have hread : fieldsIn (' ' :: fieldText p) = [p] := by
      rw [fieldText_eq, fieldsIn_field_alone hp.name hsemicolon hp.type_whole, hp.type_trim]
    rw [List.cons_append, innerText_cons p (by simp [hback]), fieldsIn_append hpiece, hread, hrest]
    rfl

/-- Fields without semicolons in their types are read back. -/
theorem fieldsIn_innerText (hne : ps ≠ []) (hfields : ∀ p ∈ ps, IsObjectField p)
    (hclean : ∀ p ∈ ps, ';' ∉ p.type) : fieldsIn (innerText ps) = ps := by
  obtain ⟨init, last, rfl⟩ := List.eq_nil_or_concat' ps |>.resolve_left hne
  have hlast := hfields last (by simp)
  have hread : fieldsIn (innerText [last]) = [last] := by
    have htext : innerText [last] =
        ' ' :: ((entryOf last).label ++ ':' :: ' ' :: (last.type ++ [' '])) := by
      simp [innerText, joinWith, fieldText_eq]
    rw [htext,
      fieldsIn_field hlast.name (hclean last (by simp)) hlast.type_whole (by simp [isBlank]),
      hlast.type_trim]
  rw [fieldsIn_innerText_append (by simp) (fun p hp => hfields p (by simp [hp]))
    (fun p hp => hclean p (by simp [hp])), hread]

/-- The first type with a semicolon is cut there. -/
theorem exists_fieldsIn_innerText (hfields : ∀ q ∈ front ++ p :: back, IsObjectField q)
    (hclean : ∀ q ∈ front, ';' ∉ q.type) {kept lost : Text} (htype : p.type = kept ++ ';' :: lost)
    (hkept : ';' ∉ kept) :
    ∃ more, fieldsIn (innerText (front ++ p :: back)) =
      front ++ { p with type := trim kept } :: more := by
  have hp := hfields p (by simp)
  obtain ⟨rest, hrest⟩ := exists_innerText_cons p back
  have hpiece : ';' ∉ ' ' :: ((entryOf p).label ++ ':' :: ' ' :: kept) := by
    have hlabel : ';' ∉ (entryOf p).label := Entry.not_mem_label hp.name (by decide) (by decide)
    simp [hlabel, hkept]
  have hwhole : IsWhole ',' kept := by
    have hall := hp.type_whole
    rw [htype] at hall
    exact hall.of_append
  have hsplit : innerText (p :: back) =
      (' ' :: ((entryOf p).label ++ ':' :: ' ' :: kept)) ++ ';' :: (lost ++ rest) := by
    rw [hrest, fieldText_eq, htype]
    simp
  refine ⟨fieldsIn (lost ++ rest), ?_⟩
  rw [fieldsIn_innerText_append (by simp) (fun q hq => hfields q (by simp [hq])) hclean, hsplit,
    fieldsIn_append hpiece, fieldsIn_field_alone hp.name hkept hwhole]
  rfl

/-- Of fields with semicolons in their types there is a first one. -/
theorem exists_first_of_mem (hp : p ∈ ps) (hmem : ';' ∈ p.type) :
    ∃ front q back, ps = front ++ q :: back ∧ ';' ∈ q.type ∧ ∀ r ∈ front, ';' ∉ r.type := by
  have hsome : (ps.find? fun q => ';' ∈ q.type).isSome = true := by
    rw [List.find?_isSome]
    exact ⟨p, hp, by simpa using hmem⟩
  obtain ⟨q, hq⟩ := Option.isSome_iff_exists.mp hsome
  obtain ⟨hfirst, front, back, hsplit, hclean⟩ := List.find?_eq_some_iff_append.mp hq
  exact ⟨front, q, back, hsplit, by simpa using hfirst, fun r hr => by simpa using hclean r hr⟩

/-! ## The whole list -/

/-- The names of fields are nested. -/
theorem isNested_namesText (h : ∀ p ∈ ps, IsObjectField p) : IsNested (namesText ps) := by
  have hnames : ∀ name ∈ ps.map Parameter.name, IsNested name := by
    intro name hname
    obtain ⟨p, hp, rfl⟩ := List.mem_map.mp hname
    exact isNested_of_forall (h p hp).name.isPlainChar
  have hcomma : ∀ c ∈ (", " : Text), isPlainChar c = true := List.all_eq_true.mp (by decide)
  have hjoined := isNested_joinWith hcomma hnames
  have hblank : IsNested [' '] := by decide
  exact hblank.append (hjoined.append hblank)

/-- The fields inside of braces are nested. -/
theorem isNested_innerText (h : ∀ p ∈ ps, IsObjectField p) : IsNested (innerText ps) := by
  have hfields : ∀ text ∈ ps.map fieldText, IsNested text := by
    intro text htext
    obtain ⟨p, hp, rfl⟩ := List.mem_map.mp htext
    have hlabel : IsNested (entryOf p).label :=
      isNested_of_forall (Entry.isPlainChar_label (h p hp).name)
    have hcolon : IsNested [':', ' '] := by decide
    exact hlabel.append (hcolon.append (h p hp).type_nested)
  have hsemicolon : ∀ c ∈ ("; " : Text), isPlainChar c = true := List.all_eq_true.mp (by decide)
  have hjoined := isNested_joinWith hsemicolon hfields
  have hblank : IsNested [' '] := by decide
  exact hblank.append (hjoined.append hblank)

/-- A printed list is the text between its first brace and its last one. -/
theorem exists_printAggregate_eq (ps : List Parameter) :
    ∃ inner, printAggregate ps = '\x7b' :: (inner ++ ['\x7d']) := by
  refine ⟨namesText ps ++ '\x7d' :: ':' :: ' ' :: '\x7b' :: innerText ps, ?_⟩
  simp [printAggregate]

/-- A pattern with its type has no comma outside of braces. -/
theorem isWhole_printAggregate (h : ∀ p ∈ ps, IsObjectField p) :
    IsWhole ',' (printAggregate ps) := by
  have hnames := isNested_namesText h
  have hinner := isNested_innerText h
  have hcolon : IsWhole ',' [':', ' '] := by decide
  exact (isWhole_braced (by decide) hnames).append (level_braced hnames)
    (hcolon.append (by decide) (isWhole_braced (by decide) hinner))

/-- A pattern with its type is annotated by the type. -/
theorem annotation_printAggregate (h : ∀ p ∈ ps, IsObjectField p) :
    annotation (printAggregate ps) =
      ('\x7b' :: (namesText ps ++ ['\x7d']), some ('\x7b' :: (innerText ps ++ ['\x7d']))) := by
  have hnames := isNested_namesText h
  have hpattern : IsWhole ':' ('\x7b' :: (namesText ps ++ ['\x7d'])) :=
    isWhole_braced (by decide) hnames
  have hcut := cutTop_append (by decide) hpattern (level_braced hnames)
    (' ' :: '\x7b' :: (innerText ps ++ ['\x7d']))
  unfold annotation printAggregate
  rw [hcut]
  simp only [trim_cons_of_isBlank (c := ' ') (by decide), trim_within_braces]

/-- A printed list is one part, and it stands for the fields of its type. -/
theorem parse_printAggregate (h : ∀ p ∈ ps, IsObjectField p) :
    parse (printAggregate ps) = fieldsIn (innerText ps) := by
  obtain ⟨inner, hprinted⟩ := exists_printAggregate_eq ps
  have htrim : trim (printAggregate ps) = printAggregate ps := by
    rw [hprinted, trim_within_braces]
  have hcommas : trimEndOf (· = ',') (printAggregate ps) = printAggregate ps := by
    apply trimEndOf_eq_self_of_getLast?
    intro c hc
    rw [hprinted, ← List.cons_append, List.getLast?_append] at hc
    obtain rfl : '\x7d' = c := by simpa using hc
    rfl
  have haggregate : aggregate? (printAggregate ps) = some (fieldsIn (innerText ps)) := by
    have hbrace : startsWith "\x7b" ('\x7b' :: (innerText ps ++ ['\x7d'])) = true := rfl
    unfold aggregate?
    rw [annotation_printAggregate h]
    simp only [Option.getD_some, hbrace, if_true, fields_braced]
  have hone : splitTop ',' (printAggregate ps) = [printAggregate ps] :=
    splitTop_eq_singleton (by decide) (isWhole_printAggregate h)
  have hne : printAggregate ps ≠ [] := by simp [printAggregate]
  unfold parse
  simp only [htrim, hcommas, List.isEmpty_iff, hne, if_false, hone, List.length_singleton, if_true,
    haggregate, Option.getD_some]

/-- Fields that are written as an object pattern with its type are read back, in order and with
their names, types and marks, just if no type holds a semicolon. Otherwise the fields before the
first such type are read back, and the type is read up to its first semicolon. -/
theorem aggregate_read_back_iff (ps : List Parameter) (hne : ps ≠ [])
    (h : ∀ p ∈ ps, IsObjectField p) :
    (parse (printAggregate ps) = ps ↔ ∀ p ∈ ps, ';' ∉ p.type) ∧
      ∀ front p back kept lost, ps = front ++ p :: back → (∀ q ∈ front, ';' ∉ q.type) →
        p.type = kept ++ ';' :: lost → ';' ∉ kept →
          ∃ more, parse (printAggregate ps) = front ++ { p with type := trim kept } :: more := by
  have hcut : ∀ front p back kept lost, ps = front ++ p :: back → (∀ q ∈ front, ';' ∉ q.type) →
      p.type = kept ++ ';' :: lost → ';' ∉ kept →
        ∃ more, parse (printAggregate ps) = front ++ { p with type := trim kept } :: more := by
    rintro front p back kept lost rfl hclean htype hkept
    rw [parse_printAggregate h]
    exact exists_fieldsIn_innerText h hclean htype hkept
  refine ⟨⟨?_, ?_⟩, hcut⟩
  · intro hread p hp hmem
    obtain ⟨front, q, back, hsplit, hfirst, hclean⟩ := exists_first_of_mem hp hmem
    obtain ⟨kept, lost, htype, hkept⟩ := List.eq_append_cons_of_mem hfirst
    obtain ⟨more, hmore⟩ := hcut front q back kept lost hsplit hclean htype hkept
    -- At this place the type that is read is shorter than the one that was written.
    rw [hread, hsplit] at hmore
    have hsame : q.type = trim kept :=
      congrArg Parameter.type (List.cons.inj (List.append_cancel_left hmore)).1
    have hshort := length_trim_le kept
    rw [← hsame, htype, List.length_append, List.length_cons] at hshort
    omega
  · intro hclean
    rw [parse_printAggregate h, fieldsIn_innerText hne h hclean]

/-- Fields with a mark, and with commas and colons inside of brackets. -/
def sampleFields : List Parameter :=
  [⟨"owner", "ID", false⟩, ⟨"tags", "Map<string, \x7b label: ID, at: [Date, Zone] \x7d>", true⟩,
    ⟨"$order", "(a: ID) | \x7b by: ID \x7d", true⟩]

/-- Three fields, one of them with an object type inside of angle brackets, are read back. -/
theorem sample_fields_read_back :
    (∀ p ∈ sampleFields, IsObjectField p) ∧
    printAggregate sampleFields =
      ("\x7b owner, tags, $order \x7d: \x7b owner: ID; " : Text) ++
        "tags?: Map<string, \x7b label: ID, at: [Date, Zone] \x7d>; " ++
        "$order?: (a: ID) | \x7b by: ID \x7d \x7d" ∧
    parse (printAggregate sampleFields) = sampleFields := by
  have h : ∀ p ∈ sampleFields, IsObjectField p := by decide +kernel
  refine ⟨h, by decide +kernel, ?_⟩
  exact (aggregate_read_back_iff sampleFields (by decide) h).1.mpr (by decide +kernel)

/-- A field whose type is an object type of two fields. -/
def rangeField : Parameter := ⟨"range", "\x7b from: ID; to: ID \x7d", false⟩

/-- The semicolon inside of the type ends the field, and a second one begins behind it. -/
theorem range_field_read_as_two :
    IsObjectField rangeField ∧ IsWhole ';' rangeField.type ∧
    printAggregate [rangeField] = "\x7b range \x7d: \x7b range: \x7b from: ID; to: ID \x7d \x7d" ∧
    parse (printAggregate [rangeField]) =
      [⟨"range", "\x7b from: ID", false⟩, ⟨"to", "ID \x7d", false⟩] ∧
    parse (printAggregate [rangeField]) ≠ [rangeField] := by
  decide +kernel

end Parameters

end Concordance
