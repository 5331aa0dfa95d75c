import Concordance.Proofs.Headings
import Concordance.Proofs.Relaid

set_option autoImplicit false

/-!
# Lines of a state part

Headings are looked for in the middle of a state part as anywhere else, so a field that is called
`purpose` ends the part and starts a new purpose. Which lines of a document have which numbers does
not matter to its state, and neither do blank lines (`state_read`). A document with one entity keeps
its fields up to the first one that is called so, and all of them if there is none
(`state_fields_kept_iff_none_called_purpose`).
-/

namespace Concordance

open Text Outline Lexeme

namespace Specification

/-! ## Documents without line numbers -/

/-- The lines of a document that hold something, without the blanks around them. -/
def shownLines (document : Text) : List Text :=
  ((lines document).map trim).filter fun line => !line.isEmpty

/-- A line whose number does not matter. -/
def unnumbered (text : Text) : Line := ⟨0, text⟩

/-- Leaving the numbers out keeps the texts. -/
@[simp] theorem text_unnumbered (ls : List Text) : (ls.map unnumbered).map Line.text = ls := by
  rw [List.map_map]
  exact List.map_id ls

/-- Blank lines have no mark. -/
theorem marks_filter_isShown (titled : Bool) (ls : List Line) :
    marks titled (ls.filter isShown) = marks titled ls := by
  induction ls generalizing titled with
  | nil => rfl
  | cons l ls ih =>
    by_cases htext : trim l.text = []
    · rw [List.filter_cons_of_neg (by simp [isShown, htext]), marks_cons_blank htext, ih]
    · rw [List.filter_cons_of_pos (by simp [isShown, htext])]
      simp only [marks, ih]

/-- Lines without their numbers and outer blanks are laid out anew. -/
theorem relaid_unnumbered (titled : Bool) (ls : List Line) :
    Relaid (fun _ => 0) titled ls (ls.map fun l => unnumbered (trim l.text)) := by
  induction ls generalizing titled with
  | nil => exact .nil titled
  | cons l ls ih => exact .line ⟨rfl, trim_trim l.text⟩ (ih _)

/-- Apart from line numbers, a document is read from its lines that hold something. -/
theorem renumber_read (document path : Text) :
    (read document path).renumber (fun _ => 0) =
      readLines ((shownLines document).map unnumbered) path := by
  have hshown : read document path = readLines ((numbered document).filter isShown) path := by
    unfold readLines
    rw [marks_filter_isShown]
    rfl
  have hlines : (shownLines document).map unnumbered =
      ((numbered document).filter isShown).map fun l => unnumbered (trim l.text) := by
    have htexts : lines document = (numbered document).map Line.text :=
      (text_numberedFrom 1 (lines document)).symm
    unfold shownLines
    rw [htexts, List.map_map, List.filter_map, List.map_map]
    rfl
  rw [hshown, hlines, (relaid_unnumbered false _).readLines]

/-- The state depends only on the lines that are shown. -/
theorem state_read (document path : Text) :
    (read document path).state = (readLines ((shownLines document).map unnumbered) path).state := by
  rw [← renumber_read]
  rfl

/-- A trimmed line says something and is no heading, in a document that has its title already, or
not yet. -/
structure IsBody (titled : Bool) (line : Text) : Prop where
  trim_eq : trim line = line
  ne_nil : line ≠ []
  heading : heading? titled line = none
  comment : isComment line = false

/-- A body line is marked as one. -/
theorem IsBody.marks_cons {titled : Bool} {line : Text} (h : IsBody titled line)
    (rest : List Line) :
    marks titled (unnumbered line :: rest) = .body (unnumbered line) :: marks titled rest := by
  have htext : trim (unnumbered line).text = line := h.trim_eq
  apply marks_cons_body
  · rw [htext]
    exact h.ne_nil
  · rw [htext, h.heading]
  · rw [htext, h.comment]

/-- An identifier that is no heading of a part is a body line. -/
theorem isBody_identifier {name : Text} (h : IsIdentifier name) (titled : Bool)
    (hpart : Heading.part? (lower name) = none) : IsBody titled name where
  trim_eq := h.trim
  ne_nil := by
    obtain ⟨c, t, rfl, -⟩ := h.exists_cons
    simp
  heading := Heading.heading?_identifier h titled hpart
  comment := by
    have hcomment := Heading.isComment_append h []
    rwa [List.append_nil] at hcomment

/-! ## A state part with one entity -/

/-- A field can be written on a line of its own. -/
structure IsField (field : Text × Text) : Prop where
  name : IsIdentifier field.1
  type_ne_nil : field.2 ≠ []
  type_trim : trim field.2 = field.2

/-- A field is called `purpose`, in some letter case. -/
def calledPurpose (field : Text × Text) : Bool := lower field.1 = "purpose"

/-- An identifier is a label. -/
theorem isLabel_of_isIdentifier {name : Text} (h : IsIdentifier name) : IsLabel name := by
  obtain ⟨c, t, rfl, hc, -⟩ := h.exists_cons
  refine ⟨h.trim, by simp, h.not_mem (by decide +kernel), ?_⟩
  rw [List.head?_cons, ne_eq, Option.some.injEq]
  rintro rfl
  exact absurd hc (by decide)

section Fields

variable {field : Text × Text} {fields : List (Text × Text)}

/-- A field line has no blanks at its ends. -/
theorem IsField.trim_fieldLine (h : IsField field) : trim (fieldLine field) = fieldLine field := by
  have hname := trimStart_append_of_identifier h.name ": "
  exact trim_append (by simp) hname h.type_ne_nil (trimEnd_eq_self_of_trim h.type_trim)

/-- A field line is a body line, unless the field is called purpose. -/
theorem IsField.isBody (h : IsField field) (titled : Bool)
    (hpurpose : calledPurpose field = false) :
    IsBody titled (fieldLine field) where
  trim_eq := h.trim_fieldLine
  ne_nil := by simp [fieldLine]
  heading := by
    have hheading := Heading.heading?_fieldLine h.name titled h.type_trim h.type_ne_nil
    rwa [if_neg (of_decide_eq_false hpurpose)] at hheading
  comment := by
    unfold fieldLine
    rw [List.append_assoc]
    exact Heading.isComment_append h.name _

/-- Below a title a field line is a body line, or the heading of the purpose if the field is called
so. -/
theorem marks_cons_fieldLine (h : IsField field) (rest : List Line) :
    marks true (unnumbered (fieldLine field) :: rest) =
      (if calledPurpose field then .heading (.opens .purpose (some field.2)) 0
        else .body (unnumbered (fieldLine field))) :: marks true rest := by
  cases hpurpose : calledPurpose field with
  | false => exact (h.isBody true hpurpose).marks_cons rest
  | true =>
    have htext : trim (unnumbered (fieldLine field)).text = fieldLine field := h.trim_fieldLine
    have hheading := Heading.heading?_fieldLine h.name true h.type_trim h.type_ne_nil
    rw [if_pos (of_decide_eq_true hpurpose), ← fieldLine, ← htext] at hheading
    exact marks_cons_heading hheading

/-- Fields of one name are all called like the purpose, or none of them is. -/
theorem lookup_takeWhile_eq_none (hpurpose : calledPurpose field = true) :
    (fields.takeWhile fun field => !calledPurpose field).reverse.lookup field.1 = none := by
  rw [List.lookup_eq_none_iff]
  intro other hother
  have hcalled := List.mem_takeWhile_imp (List.mem_reverse.mp hother)
  rw [bne_iff_ne]
  intro heq
  have hsame : calledPurpose other = calledPurpose field := by
    rw [calledPurpose, calledPurpose, heq]
  rw [hsame, hpurpose] at hcalled
  cases hcalled

section Marks

variable (h : ∀ field ∈ fields, IsField field)
include h

/-- The first field that is called like the purpose cuts the part off. -/
theorem bodyLines_fieldLines :
    bodyLines (marks true ((fields.map fieldLine).map unnumbered)) =
      ((fields.takeWhile fun field => !calledPurpose field).map fieldLine).map unnumbered := by
  induction fields with
  | nil => rfl
  | cons field fields ih =>
    have hrest := ih fun f hf => h f (List.mem_cons_of_mem field hf)
    rw [List.map_cons, List.map_cons, marks_cons_fieldLine (h field List.mem_cons_self)]
    cases hpurpose : calledPurpose field with
    | true => simp [bodyLines, hpurpose]
    | false => simpa [bodyLines, hpurpose] using hrest

/-- The blocks that field lines open are all of the purpose. -/
theorem blocks_fieldLines :
    ∀ block ∈ blocks (marks true ((fields.map fieldLine).map unnumbered)),
      ∃ ls, block = .content .purpose ls := by
  induction fields with
  | nil => simp [marks, blocks]
  | cons field fields ih =>
    have hrest := ih fun f hf => h f (List.mem_cons_of_mem field hf)
    rw [List.map_cons, List.map_cons, marks_cons_fieldLine (h field List.mem_cons_self)]
    cases calledPurpose field with
    | true => exact List.forall_mem_cons.mpr ⟨⟨_, rfl⟩, hrest⟩
    | false => exact hrest

/-- Field lines open no block if none of the fields is called purpose. -/
theorem blocks_fieldLines_of_forall (hnone : ∀ field ∈ fields, calledPurpose field = false) :
    blocks (marks true ((fields.map fieldLine).map unnumbered)) = [] := by
  induction fields with
  | nil => rfl
  | cons field fields ih =>
    rw [List.map_cons, List.map_cons, marks_cons_fieldLine (h field List.mem_cons_self),
      hnone field List.mem_cons_self]
    exact ih (fun f hf => h f (List.mem_cons_of_mem field hf))
      (fun f hf => hnone f (List.mem_cons_of_mem field hf))

end Marks

end Fields

/-- An identifier does not end with a brace. -/
theorem getLast?_ne_brace {name : Text} (h : IsIdentifier name) : name.getLast? ≠ some '\x7b' := by
  intro hlast
  exact h.not_mem (by decide +kernel) (List.mem_of_getLast? hlast)

/-- An identifier consists of characters of names. -/
theorem isNameChar_of_isIdentifier {name : Text} (h : IsIdentifier name) :
    ∀ c ∈ name, isNameChar c = true := by
  intro c hc
  have hblank := isBlank_eq_false_of_identifier (h.char hc)
  have hne : c ≠ '[' ∧ c ≠ '<' ∧ c ≠ ':' := by
    refine ⟨?_, ?_, ?_⟩ <;> rintro rfl <;> exact h.not_mem (by decide +kernel) hc
  simp [isNameChar, hblank, hne]

/-- Blocks of the purpose leave the state alone. -/
theorem state_foldl_addBlock {bs : List Block} (h : ∀ b ∈ bs, ∃ ls, b = .content .purpose ls)
    (s : Specification) : (bs.foldl addBlock s).state = s.state := by
  induction bs generalizing s with
  | nil => rfl
  | cons b bs ih =>
    obtain ⟨ls, rfl⟩ := h b List.mem_cons_self
    rw [List.foldl_cons, ih fun b hb => h b (List.mem_cons_of_mem _ hb)]
    rfl

/-- A document has a title, a purpose of one line, and a state part with one entity. -/
structure HoldsEntity (document name purpose entity : Text) (fields : List (Text × Text)) :
    Prop where
  lines : shownLines document = (("concept " : Text) ++ name) :: ("purpose" : Text) :: purpose ::
    ("state" : Text) :: entity :: fields.map fieldLine
  name : IsIdentifier name
  purpose : IsBody true purpose
  entity : IsIdentifier entity ∧ Heading.part? (lower entity) = none
  fields : ∀ field ∈ fields, IsField field

namespace HoldsEntity

variable {document name purpose entity : Text} {fields : List (Text × Text)}
  (h : HoldsEntity document name purpose entity fields)
include h

/-- The marks of a document that holds an entity. -/
theorem marks_eq :
    marks false ((shownLines document).map unnumbered) =
      .heading (.title name) 0 :: .heading (.opens .purpose none) 0 ::
        .body (unnumbered purpose) :: .heading (.opens .state none) 0 ::
        .body (unnumbered entity) :: marks true ((fields.map fieldLine).map unnumbered) := by
  have hname_ne : name ≠ [] := (isLabel_of_isIdentifier h.name).2.1
  have htitle : heading? false (trim (unnumbered (("concept " : Text) ++ name)).text) =
      some (.title name) := heading?_title hname_ne (isNameChar_of_isIdentifier h.name)
  have htitled : (false || (Heading.title name).isTitle) = true := rfl
  have hpurpose : heading? true (trim (unnumbered ("purpose" : Text)).text) =
      some (.opens .purpose none) := heading?_heading true .purpose
  have hstate : heading? true (trim (unnumbered ("state" : Text)).text) =
      some (.opens .state none) := heading?_heading true .state
  simp only [h.lines, List.map_cons]
  rw [marks_cons_heading htitle, htitled, marks_cons_heading hpurpose, Bool.true_or,
    h.purpose.marks_cons, marks_cons_heading hstate, Bool.true_or,
    (isBody_identifier h.entity.1 true h.entity.2).marks_cons]
  rfl

/-- The blocks of a document that holds an entity: its state ends before a field that is called
purpose. -/
theorem blocks_eq :
    blocks (marks false ((shownLines document).map unnumbered)) =
      .title name :: .content .purpose [unnumbered purpose] ::
        .content .state (unnumbered entity ::
          ((fields.takeWhile fun field => !calledPurpose field).map fieldLine).map unnumbered) ::
        blocks (marks true ((fields.map fieldLine).map unnumbered)) := by
  rw [h.marks_eq, ← bodyLines_fieldLines h.fields]
  rfl

/-- The state part gives the entity with its fields. -/
theorem readState_eq (owner : Text) {kept : List (Text × Text)}
    (hkept : ∀ field ∈ kept, field ∈ fields) :
    readState owner none .empty (unnumbered entity :: (kept.map fieldLine).map unnumbered) =
      Dict.empty.insert entity (Dict.ofList kept) := by
  have hentity := h.entity.1
  have hfields : ∀ field ∈ kept, IsLabel field.1 ∧ trim field.2 = field.2 := by
    intro field hfield
    have hf := h.fields field (hkept field hfield)
    exact ⟨isLabel_of_isIdentifier hf.name, hf.type_trim⟩
  rw [unnumbered,
    readState_entity none (isLabel_of_isIdentifier hentity) (getLast?_ne_brace hentity),
    ← List.append_nil (List.map _ _), readState_fields owner hfields (text_unnumbered _)]
  exact addFields_insert entity .empty kept

/-- The state that is read has the entity with the fields before one that is called purpose. -/
theorem entries_state (path : Text) :
    (read document path).state.entries =
      [(entity, Dict.ofList (fields.takeWhile fun field => !calledPurpose field))] := by
  have hkept : ∀ field ∈ fields.takeWhile fun field => !calledPurpose field, field ∈ fields :=
    fun field hfield => (List.takeWhile_prefix _).subset hfield
  rw [state_read, readLines, h.blocks_eq]
  simp only [List.foldl_cons]
  rw [state_foldl_addBlock (blocks_fieldLines h.fields)]
  simp only [addBlock, blank]
  rw [h.readState_eq _ hkept]
  rfl

/-- The purpose that is read is the one of the document, if no field is called so. -/
theorem purpose_eq (path : Text) (hnone : ∀ field ∈ fields, calledPurpose field = false) :
    (read document path).purpose = purpose := by
  have hread : (read document path).purpose =
      (readLines ((shownLines document).map unnumbered) path).purpose := by
    rw [← renumber_read]
    rfl
  rw [hread, readLines, h.blocks_eq, blocks_fieldLines_of_forall h.fields hnone]
  -- Of the blocks of the document only the one with this line says anything about the purpose.
  change prose [unnumbered purpose] = purpose
  simp [prose, unnumbered, h.purpose.trim_eq, h.purpose.ne_nil, joinWith]

end HoldsEntity

/-- A state part with one entity keeps the fields before the first one that is called `purpose`, in
any letter case. The purpose of the document and all fields, each with the type given last, are read
as they were written exactly if no field is called so. -/
theorem state_fields_kept_iff_none_called_purpose {document name purpose entity : Text}
    {fields : List (Text × Text)} (h : HoldsEntity document name purpose entity fields)
    (path : Text) :
    (read document path).state.entries =
        [(entity, Dict.ofList (fields.takeWhile fun field => !calledPurpose field))] ∧
      (((read document path).purpose = purpose ∧
          ∃ kept : Dict Text, (read document path).state.entries = [(entity, kept)] ∧
            ∀ field, kept.get? field = fields.reverse.lookup field) ↔
        ∀ field ∈ fields, calledPurpose field = false) := by
  have hentries := h.entries_state path
  refine ⟨hentries, ?_, ?_⟩
  · rintro ⟨-, kept, hkept, hget⟩ field hfield
    obtain rfl : Dict.ofList (fields.takeWhile fun field => !calledPurpose field) = kept := by
      rw [hentries] at hkept
      simpa using hkept
    rw [← Bool.not_eq_true]
    intro hpurpose
    have hfound := hget field.1
    rw [Dict.get?_ofList, lookup_takeWhile_eq_none hpurpose, eq_comm,
      List.lookup_eq_none_iff] at hfound
    have hself := hfound field (List.mem_reverse.mpr hfield)
    simp at hself
  · intro hnone
    refine ⟨h.purpose_eq path hnone, _, hentries, ?_⟩
    have hall : (fields.takeWhile fun field => !calledPurpose field) = fields := by
      rw [List.takeWhile_eq_self_iff]
      intro field hfield
      rw [hnone field hfield]
      rfl
    intro field
    rw [hall, Dict.get?_ofList]

/-- The fields of a booking, one of them written twice. -/
def bookingFields : List (Text × Text) :=
  [("guest", "Text"), ("purposes", "Set<Text>"), ("state", "Open | Paid"), ("guest", "User")]

/-- A document with the entity Bookings, one of whose fields is declared twice. -/
def bookingText : Text :=
  unlines ["concept Room", "", "purpose", "  book rooms", "", "state", "  Bookings",
    "    guest: Text", "    purposes: Set<Text>", "    state: Open | Paid", "", "    guest: User"]

/-- The state of a room booking has its entity, with the last type of the field that is declared
twice. -/
theorem booking_fields_kept :
    HoldsEntity bookingText "Room" "book rooms" "Bookings" bookingFields ∧
      (read bookingText "Room.concept").purpose = "book rooms" ∧
      ∃ kept : Dict Text,
        (read bookingText "Room.concept").state.entries = [(("Bookings" : Text), kept)] ∧
        ∀ field, kept.get? field = bookingFields.reverse.lookup field := by
  have hfields : ∀ field ∈ bookingFields, IsField field ∧ calledPurpose field = false := by
    intro field hfield
    simp only [bookingFields, List.mem_cons, List.not_mem_nil, or_false] at hfield
    rcases hfield with rfl | rfl | rfl | rfl <;>
      exact ⟨⟨by decide +kernel, by decide, by decide⟩, by decide +kernel⟩
  have h : HoldsEntity bookingText "Room" "book rooms" "Bookings" bookingFields :=
    { lines := by decide +kernel
      name := by decide +kernel
      purpose := ⟨by decide, by decide, by decide +kernel, by decide⟩
      entity := by decide +kernel
      fields := fun field hfield => (hfields field hfield).1 }
  exact ⟨h, (state_fields_kept_iff_none_called_purpose h "Room.concept").2.mpr
    fun field hfield => (hfields field hfield).2⟩

/-- A visit has a purpose of its own. -/
def visitText : Text :=
  unlines ["concept Visit", "purpose", "  plan visits", "state", "  Visits", "    purpose: Text"]

/-- Its field is taken for the purpose of the concept, and the entity is left without fields. -/
theorem purpose_field_leaves_state :
    ¬ ∀ document name purpose entity fields path, HoldsEntity document name purpose entity fields →
      (read document path).purpose = purpose ∧
        ∃ kept : Dict Text, (read document path).state.entries = [(entity, kept)] ∧
          ∀ field, kept.get? field = fields.reverse.lookup field := by
  intro hall
  have hvisit : HoldsEntity visitText "Visit" "plan visits" "Visits" [("purpose", "Text")] :=
    { lines := by decide +kernel
      name := by decide +kernel
      purpose := ⟨by decide, by decide, by decide +kernel, by decide⟩
      entity := by decide +kernel
      fields := by
        intro field hfield
        obtain rfl := List.mem_singleton.mp hfield
        exact ⟨by decide +kernel, by decide, by decide⟩ }
  have hpurpose : (read visitText "Visit.concept").purpose = "Text" := by decide +kernel
  have hkept := (hall _ _ _ _ _ "Visit.concept" hvisit).1
  rw [hpurpose] at hkept
  exact absurd hkept (by decide)

end Specification

end Concordance
