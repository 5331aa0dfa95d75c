import Concordance.Proofs.StateLines

set_option autoImplicit false

/-!
# Entities in braces

An entity may be written with its fields in braces. The brace behind its name is dropped, but the
line that closes the braces has no colon, so it names an entity like any other line without one. A
state part in braces therefore holds what the plain one holds and an entity `}` besides
(`state_of_braced_eq_addEntity`). An entity that is added once can be added at any time: adding one
goes past all that is read later (`addBlock_withEntity`).
-/

namespace Concordance

open Text Outline Lexeme

/-! ## Parts of outlines -/

namespace Outline

/-- A line reads as a title. -/
def readsTitle (line : Text) : Bool := (Heading.parse? (trim line)).any Heading.isTitle

/-- A line has at most one mark, whatever follows it. -/
theorem exists_marks_cons (titled : Bool) (line : Line) :
    ∃ mark : Option Mark, ∀ rest, marks titled (line :: rest) =
      mark.toList ++ marks (titledAfter titled line.text) rest := by
  by_cases htext : trim line.text = []
  · refine ⟨none, fun rest => ?_⟩
    rw [marks_cons_blank htext, titledAfter_of_none (by simp [htext])]
    rfl
  · cases hh : heading? titled (trim line.text) with
    | some heading =>
      refine ⟨some (.heading heading line.number), fun rest => ?_⟩
      rw [marks_cons_heading hh, titledAfter_of_heading hh]
      rfl
    | none =>
      rw [titledAfter_of_none hh]
      cases hcomment : isComment (trim line.text) with
      | true => exact ⟨none, fun rest => marks_cons_comment hh hcomment⟩
      | false => exact ⟨some (.body line), fun rest => marks_cons_body htext hh hcomment⟩

/-- The marks of lines behind others depend on these only in whether one of them is a title. -/
theorem marks_append (titled : Bool) (ls rest : List Line) :
    marks titled (ls ++ rest) =
      marks titled ls ++ marks (titled || ls.any fun l => readsTitle l.text) rest := by
  induction ls generalizing titled with
  | nil => simp [marks]
  | cons l ls ih =>
    obtain ⟨mark, hmark⟩ := exists_marks_cons titled l
    have htitled : titledAfter titled l.text = (titled || readsTitle l.text) := rfl
    rw [List.cons_append, hmark, hmark, ih, htitled, List.any_cons, Bool.or_assoc,
      List.append_assoc]

/-- A heading ends the body before it. -/
theorem bodyLines_append_heading (ms ms' : List Mark) (h : Heading) (n : Nat) :
    bodyLines (ms ++ .heading h n :: ms') = bodyLines ms := by
  induction ms with
  | nil => rfl
  | cons m ms ih =>
    cases m with
    | heading h n => rfl
    | body line => simp only [List.cons_append, bodyLines, ih]

/-- A heading starts a block behind those before it. -/
theorem blocks_append_heading (ms ms' : List Mark) (h : Heading) (n : Nat) :
    blocks (ms ++ .heading h n :: ms') = blocks ms ++ blocks (.heading h n :: ms') := by
  induction ms with
  | nil => rfl
  | cons m ms ih =>
    cases m with
    | body line => exact ih
    | heading h' n' =>
      cases h' with
      | title name => simp only [List.cons_append, blocks, ih]
      | opens part inlined =>
        simp only [List.cons_append, blocks, ih, bodyLines_append_heading]

/-- Lines that begin with a heading have no body before it. -/
theorem bodyLines_marks_of_head? {titled : Bool} {ls : List Line}
    (h : ∀ line ∈ ls.head?, (heading? titled (trim line.text)).isSome = true) :
    bodyLines (marks titled ls) = [] := by
  cases ls with
  | nil => rfl
  | cons line rest =>
    obtain ⟨heading, hheading⟩ := Option.isSome_iff_exists.mp (h line rfl)
    rw [marks_cons_heading hheading]
    rfl

end Outline

namespace Specification

/-! ## Adding an entity early or late -/

section Adding

variable (state : Dict (Dict Text)) (entity other field type : Text)

/-- An entity that is added is there, with its fields if it was there before, and no other
changes. -/
theorem get?_addEntity (key : Text) :
    (addEntity state entity).get? key =
      if key = entity then some ((state.get? entity).getD .empty) else state.get? key := by
  rw [addEntity, Dict.get?_insert_eq_if]

/-- A field that is added is in its entity, and no other entity changes. -/
theorem get?_addField (key : Text) :
    (addField state entity field type).get? key =
      if key = entity then some (((state.get? entity).getD .empty).insert field type)
      else state.get? key := by
  rw [addField, Dict.get?_insert_eq_if]

/-- The order in which entities are added makes no difference. -/
theorem addEntity_comm :
    addEntity (addEntity state other) entity = addEntity (addEntity state entity) other := by
  apply Dict.ext_get?
  intro key
  simp only [get?_addEntity]
  grind

/-- An entity is added once. -/
theorem addEntity_addEntity :
    addEntity (addEntity state entity) entity = addEntity state entity := by
  apply Dict.ext_get?
  intro key
  simp only [get?_addEntity]
  grind

/-- Adding an entity and adding a field can be done in either order. -/
theorem addField_addEntity :
    addField (addEntity state other) entity field type =
      addEntity (addField state entity field type) other := by
  apply Dict.ext_get?
  intro key
  simp only [get?_addEntity, get?_addField]
  grind

/-- Adding an entity changes nothing just if it is there. -/
theorem addEntity_eq_self_iff : addEntity state entity = state ↔ state.contains entity = true := by
  unfold Dict.contains
  constructor
  · intro hself
    rw [← hself, get?_addEntity, if_pos rfl]
    rfl
  · intro hsome
    obtain ⟨fields, hfields⟩ := Option.isSome_iff_exists.mp hsome
    apply Dict.ext_get?
    intro key
    rw [get?_addEntity, hfields]
    split
    · next hkey => rw [hkey, hfields, Option.getD_some]
    · rfl

end Adding

/-- An entity that is there before the state is read is there after it, and nothing else changes. -/
theorem readState_addEntity (owner : Text) (current : Option Text) (state : Dict (Dict Text))
    (entity : Text) (ls : List Line) :
    readState owner current (addEntity state entity) ls =
      addEntity (readState owner current state ls) entity := by
  induction ls generalizing current state with
  | nil => rfl
  | cons line ls ih =>
    simp only [readState]
    split
    · exact ih _ _
    · split
      · rw [addEntity_comm, ih]
      · rw [addField_addEntity, ih]

/-- The specification with one more entity, which has no fields if it is new. -/
def withEntity (s : Specification) (entity : Text) : Specification :=
  { s with state := addEntity s.state entity }

/-- An entity that a specification has before a block is added is in it afterwards, and nothing else
changes. -/
theorem addBlock_withEntity (s : Specification) (entity : Text) (block : Block) :
    addBlock (s.withEntity entity) block = (addBlock s block).withEntity entity := by
  cases block with
  | title name => rfl
  | content part ls =>
    cases part with
    | state =>
      simp only [addBlock, withEntity, readState_addEntity]
      rfl
    | purpose | actions | queries | principle => rfl

/-- An entity that a specification has before blocks are added is in it afterwards, and nothing else
changes. -/
theorem foldl_addBlock_withEntity (s : Specification) (entity : Text) (bs : List Block) :
    bs.foldl addBlock (s.withEntity entity) = (bs.foldl addBlock s).withEntity entity := by
  induction bs generalizing s with
  | nil => rfl
  | cons b bs ih => rw [List.foldl_cons, List.foldl_cons, addBlock_withEntity, ih]

/-! ## The two ways to write an entity -/

/-- An entity and its fields below it. -/
def plainLines (entity : Text × List (Text × Text)) : List Text :=
  entity.1 :: entity.2.map fieldLine

/-- An entity and its fields in braces. -/
def bracedLines (entity : Text × List (Text × Text)) : List Text :=
  (entity.1 ++ [' ', '\x7b']) :: (entity.2.map fieldLine ++ [['\x7d']])

/-- An entity and its fields have names that are not those of parts. -/
structure IsEntity (entity : Text × List (Text × Text)) : Prop where
  name : IsIdentifier entity.1
  part : Heading.part? (lower entity.1) = none
  fields : ∀ field ∈ entity.2, IsField field ∧ Heading.part? (lower field.1) = none

section Entities

variable {entity : Text × List (Text × Text)} {entities : List (Text × List (Text × Text))}

/-- A closing brace alone is a body line. -/
theorem isBody_closing (titled : Bool) : IsBody titled ['\x7d'] := by
  refine ⟨by decide, by decide, ?_, by decide⟩
  cases titled <;> decide +kernel

/-- A name with a brace is a body line, unless it is a heading. -/
theorem isBody_braced {titled : Bool} {name : Text} (h : IsIdentifier name)
    (htitle : lower name ≠ "concept" ∨ titled = true)
    (hpart : Heading.part? (lower name) = none) : IsBody titled (name ++ [' ', '\x7b']) where
  trim_eq := Heading.trim_braced h
  ne_nil := by simp
  heading := Heading.heading?_braced h htitle hpart
  comment := Heading.isComment_append h _

/-- The field lines of an entity are body lines. -/
theorem IsEntity.isBody_fieldLine (h : IsEntity entity) (titled : Bool) :
    ∀ line ∈ entity.2.map fieldLine, IsBody titled line := by
  intro line hline
  obtain ⟨field, hfield, rfl⟩ := List.mem_map.mp hline
  obtain ⟨hf, hpart⟩ := h.fields field hfield
  apply hf.isBody
  apply decide_eq_false
  intro hpurpose
  rw [hpurpose] at hpart
  cases hpart

/-- The lines of an entity are body lines. -/
theorem IsEntity.isBody_plainLines (h : IsEntity entity) (titled : Bool) :
    ∀ line ∈ plainLines entity, IsBody titled line := by
  intro line hline
  rcases List.mem_cons.mp hline with rfl | hline
  · exact isBody_identifier h.name titled h.part
  · exact h.isBody_fieldLine titled line hline

/-- The lines of an entity in braces are body lines, unless its name can be taken for a title. -/
theorem IsEntity.isBody_bracedLines {titled : Bool} (h : IsEntity entity)
    (htitle : lower entity.1 ≠ "concept" ∨ titled = true) :
    ∀ line ∈ bracedLines entity, IsBody titled line := by
  intro line hline
  rcases List.mem_cons.mp hline with rfl | hline
  · exact isBody_braced h.name htitle h.part
  · rcases List.mem_append.mp hline with hline | hline
    · exact h.isBody_fieldLine titled line hline
    · obtain rfl := List.mem_singleton.mp hline
      exact isBody_closing titled

/-- A name with a brace opens the entity of that name. -/
theorem readState_braced_name (owner : Text) (current : Option Text) (state : Dict (Dict Text))
    {name : Text} (h : IsIdentifier name) (rest : List Line) :
    readState owner current state (unnumbered (name ++ [' ', '\x7b']) :: rest) =
      readState owner (some name) (addEntity state name) rest := by
  have hlabel : IsLabel (name ++ [' ', '\x7b']) := by
    obtain ⟨-, hne, hcolon, hdash⟩ := isLabel_of_isIdentifier h
    refine ⟨Heading.trim_braced h, by simp, by simp [hcolon], ?_⟩
    rwa [List.head?_append_of_ne_nil _ hne]
  have hbrace : trimEndOf (· = '\x7b') (name ++ [' ', '\x7b']) = name ++ [' '] :=
    trimEndOf_append_of_ne_nil (by decide) name
  rw [unnumbered, readState_label current hlabel, hbrace, trim_append_of_isBlank (by decide),
    h.trim]

/-- The field lines of an entity add its fields. -/
theorem IsEntity.readState_fieldLines (h : IsEntity entity) (owner : Text)
    (state : Dict (Dict Text))
    (rest : List Line) :
    readState owner (some entity.1) state ((entity.2.map fieldLine).map unnumbered ++ rest) =
      readState owner (some entity.1) (addFields state entity.1 entity.2) rest := by
  have hfields : ∀ field ∈ entity.2, IsLabel field.1 ∧ trim field.2 = field.2 := by
    intro field hfield
    obtain ⟨hf, -⟩ := h.fields field hfield
    exact ⟨isLabel_of_isIdentifier hf.name, hf.type_trim⟩
  exact readState_fields owner hfields (text_unnumbered _) rest

/-- The lines of an entity add it with its fields. -/
theorem IsEntity.readState_plainLines (h : IsEntity entity) (owner : Text) (current : Option Text)
    (state : Dict (Dict Text)) (rest : List Line) :
    readState owner current state ((plainLines entity).map unnumbered ++ rest) =
      readState owner (some entity.1) (addFields (addEntity state entity.1) entity.1 entity.2)
        rest := by
  rw [plainLines, List.map_cons, List.cons_append, unnumbered,
    readState_entity current (isLabel_of_isIdentifier h.name) (getLast?_ne_brace h.name),
    h.readState_fieldLines]

/-- The lines of an entity in braces add it with its fields, and then one more that is called by the
closing brace. -/
theorem IsEntity.readState_bracedLines (h : IsEntity entity) (owner : Text) (current : Option Text)
    (state : Dict (Dict Text)) (rest : List Line) :
    readState owner current state ((bracedLines entity).map unnumbered ++ rest) =
      readState owner (some ['\x7d'])
        (addEntity (addFields (addEntity state entity.1) entity.1 entity.2) ['\x7d']) rest := by
  have hclosing : IsLabel ['\x7d'] := by decide
  rw [bracedLines, List.map_cons, List.cons_append,
    readState_braced_name owner current state h.name,
    List.map_append, List.append_assoc, h.readState_fieldLines]
  exact readState_entity _ hclosing (by decide)

/-- The closing lines of any number of entities add one entity in all. -/
theorem readState_braced (h : ∀ entity ∈ entities, IsEntity entity) (owner : Text)
    (current current' : Option Text) (state : Dict (Dict Text)) :
    readState owner current state ((entities.flatMap bracedLines).map unnumbered) =
      if entities = [] then state
      else addEntity (readState owner current' state ((entities.flatMap plainLines).map unnumbered))
        ['\x7d'] := by
  induction entities generalizing current current' state with
  | nil => rfl
  | cons entity entities ih =>
    have hentity := h entity List.mem_cons_self
    have hrest := ih fun e he => h e (List.mem_cons_of_mem entity he)
    rw [List.flatMap_cons, List.map_append, hentity.readState_bracedLines, List.flatMap_cons,
      List.map_append, hentity.readState_plainLines, if_neg (List.cons_ne_nil entity entities),
      hrest _ (some entity.1)]
    split
    · next hnil =>
      subst hnil
      rfl
    · rw [readState_addEntity, addEntity_addEntity]

end Entities

/-- A state part in braces adds one entity more, if it has any. -/
theorem addBlock_braced {entities : List (Text × List (Text × Text))}
    (h : ∀ entity ∈ entities, IsEntity entity) (s : Specification) :
    addBlock s (.content .state ((entities.flatMap bracedLines).map unnumbered)) =
      if entities = [] then
        addBlock s (.content .state ((entities.flatMap plainLines).map unnumbered))
      else
        (addBlock s (.content .state ((entities.flatMap plainLines).map unnumbered))).withEntity
          ['\x7d'] := by
  simp only [addBlock]
  rw [readState_braced h _ none none]
  split
  · next hnil =>
    subst hnil
    rfl
  · rfl

/-! ## A state part among others -/

/-- Body lines are marked as such, whatever follows them. -/
theorem marks_append_of_isBody {titled : Bool} {body : List Text}
    (h : ∀ line ∈ body, IsBody titled line) (rest : List Line) :
    marks titled (body.map unnumbered ++ rest) =
      (body.map unnumbered).map .body ++ marks titled rest := by
  induction body with
  | nil => rfl
  | cons line body ih =>
    have hrest := ih fun l hl => h l (List.mem_cons_of_mem line hl)
    rw [List.map_cons, List.cons_append, (h line List.mem_cons_self).marks_cons, hrest]
    rfl

/-- The lines of a state part make up a block between those before and those behind it. -/
theorem blocks_state_part {front body back : List Text}
    (hbody : ∀ line ∈ body, IsBody (front.any readsTitle) line)
    (hback : ∀ line ∈ back.head?, (heading? (front.any readsTitle) (trim line)).isSome = true) :
    blocks (marks false ((front ++ ("state" : Text) :: (body ++ back)).map unnumbered)) =
      blocks (marks false (front.map unnumbered)) ++
        .content .state (body.map unnumbered) ::
          blocks (marks (front.any readsTitle) (back.map unnumbered)) := by
  have htitled : (false || (front.map unnumbered).any fun l => readsTitle l.text) =
      front.any readsTitle := by
    rw [List.any_map]
    rfl
  have hstate : heading? (front.any readsTitle) (trim (unnumbered ("state" : Text)).text) =
      some (.opens .state none) := heading?_heading _ .state
  have hstays : (front.any readsTitle || (Heading.opens .state none).isTitle) =
      front.any readsTitle := Bool.or_false _
  have hend : bodyLines (marks (front.any readsTitle) (back.map unnumbered)) = [] := by
    apply bodyLines_marks_of_head?
    intro line hline
    rw [List.head?_map] at hline
    obtain ⟨text, htext, rfl⟩ := Option.map_eq_some_iff.mp hline
    exact hback text htext
  rw [List.map_append, marks_append, htitled, List.map_cons, marks_cons_heading hstate, hstays,
    List.map_append, marks_append_of_isBody hbody, blocks_append_heading, blocks,
    bodyLines_map_body_append, blocks_map_body_append, hend]
  simp

/-- Two documents have a state part in common but for the braces around its entities. The next
heading ends the part. No entity can be taken for a title: there is one before the part, or the
entity has another name than the word that a title starts with (`titled`). -/
structure DifferInBraces (plain braced : Text) (front back : List Text)
    (entities : List (Text × List (Text × Text))) : Prop where
  plain_lines :
    shownLines plain = front ++ ("state" : Text) :: (entities.flatMap plainLines ++ back)
  braced_lines :
    shownLines braced = front ++ ("state" : Text) :: (entities.flatMap bracedLines ++ back)
  isEntity : ∀ entity ∈ entities, IsEntity entity
  titled : ∀ entity ∈ entities, lower entity.1 ≠ "concept" ∨ front.any readsTitle = true
  ends : ∀ line ∈ back.head?, (heading? (front.any readsTitle) (trim line)).isSome = true

/-- A state part in braces holds one entity more than the plain one, named by the closing brace.
So the two are read alike only if there are no entities, or if the plain document has that entity
too. -/
theorem state_of_braced_eq_addEntity {plain braced : Text} {front back : List Text}
    {entities : List (Text × List (Text × Text))}
    (h : DifferInBraces plain braced front back entities) (path : Text) :
    (read braced path).state =
        (if entities = [] then (read plain path).state
          else addEntity (read plain path).state ['\x7d']) ∧
      ((read braced path).state = (read plain path).state ↔
        entities = [] ∨ (read plain path).state.contains ['\x7d'] = true) := by
  have hplain : ∀ line ∈ entities.flatMap plainLines, IsBody (front.any readsTitle) line := by
    intro line hline
    obtain ⟨entity, hentity, hline⟩ := List.mem_flatMap.mp hline
    exact (h.isEntity entity hentity).isBody_plainLines _ line hline
  have hbraced : ∀ line ∈ entities.flatMap bracedLines, IsBody (front.any readsTitle) line := by
    intro line hline
    obtain ⟨entity, hentity, hline⟩ := List.mem_flatMap.mp hline
    exact (h.isEntity entity hentity).isBody_bracedLines (h.titled entity hentity) line hline
  have hstate : (read braced path).state =
      if entities = [] then (read plain path).state
      else addEntity (read plain path).state ['\x7d'] := by
    rw [state_read, state_read, h.plain_lines, h.braced_lines, readLines, readLines,
      blocks_state_part hplain h.ends, blocks_state_part hbraced h.ends]
    simp only [List.foldl_append, List.foldl_cons]
    rw [addBlock_braced h.isEntity]
    split
    · rfl
    · rw [foldl_addBlock_withEntity]
      rfl
  refine ⟨hstate, ?_⟩
  rw [hstate]
  split
  · next hnil => simp [hnil]
  · next hne => rw [addEntity_eq_self_iff, or_iff_right hne]

/-- Two entities with fields. -/
def crewEntities : List (Text × List (Text × Text)) :=
  [("Crews", [("name", "Text"), ("members", "Set<User>")]), ("Users", [("name", "Text")])]

/-- The lines before the state part, trimmed. -/
def crewFront : List Text := ["concept Crew", "purpose", "group users"]

/-- The lines after the state part, trimmed. -/
def crewBack : List Text := ["actions", "start () : ok"]

/-- A document with the two entities as they are. -/
def plainCrewText : Text :=
  unlines ["concept Crew", "purpose", "  group users", "state", "  Crews", "    name: Text",
    "    members: Set<User>", "", "  Users", "    name: Text", "actions", "  start () : ok"]

/-- The document with braces around the fields of each entity. -/
def bracedCrewText : Text :=
  unlines ["concept Crew", "purpose", "  group users", "state", "  Crews \x7b", "    name: Text",
    "    members: Set<User>", "  \x7d", "", "  Users \x7b", "    name: Text", "  \x7d", "actions",
    "  start () : ok"]

/-- The crew in braces has one entity more than the crew without. -/
theorem crew_in_braces_has_one_entity_more :
    DifferInBraces plainCrewText bracedCrewText crewFront crewBack crewEntities ∧
      (read bracedCrewText "Crew.concept").state =
        addEntity (read plainCrewText "Crew.concept").state ['\x7d'] := by
  have hentities : ∀ entity ∈ crewEntities, IsEntity entity := by
    intro entity hentity
    simp only [crewEntities, List.mem_cons, List.not_mem_nil, or_false] at hentity
    rcases hentity with rfl | rfl
    · refine ⟨by decide +kernel, by decide +kernel, fun field hfield => ?_⟩
      simp only [List.mem_cons, List.not_mem_nil, or_false] at hfield
      rcases hfield with rfl | rfl <;>
        exact ⟨⟨by decide +kernel, by decide, by decide⟩, by decide +kernel⟩
    · refine ⟨by decide +kernel, by decide +kernel, fun field hfield => ?_⟩
      obtain rfl := List.mem_singleton.mp hfield
      exact ⟨⟨by decide +kernel, by decide, by decide⟩, by decide +kernel⟩
  have h : DifferInBraces plainCrewText bracedCrewText crewFront crewBack crewEntities :=
    ⟨by decide +kernel, by decide +kernel, hentities, fun _ _ => Or.inr (by decide +kernel),
      by decide +kernel⟩
  exact ⟨h, (state_of_braced_eq_addEntity h "Crew.concept").1⟩

/-- One entity with one field. -/
def teamEntities : List (Text × List (Text × Text)) := [("Teams", [("name", "Text")])]

/-- A document with the one entity as it is. -/
def plainTeamText : Text :=
  unlines ["concept Team", "purpose", "  group users", "state", "  Teams", "    name: Text"]

/-- The document with braces around the field. -/
def bracedTeamText : Text :=
  unlines ["concept Team", "purpose", "  group users", "state", "  Teams \x7b", "    name: Text",
    "  \x7d"]

/-- One entity with one field is read differently in braces. -/
theorem closing_brace_read_as_entity :
    ¬ ∀ plain braced front back entities path, DifferInBraces plain braced front back entities →
      (read braced path).state = (read plain path).state := by
  intro hall
  have hentities : ∀ entity ∈ teamEntities, IsEntity entity := by
    intro entity hentity
    obtain rfl := List.mem_singleton.mp hentity
    refine ⟨by decide +kernel, by decide +kernel, fun field hfield => ?_⟩
    obtain rfl := List.mem_singleton.mp hfield
    exact ⟨⟨by decide +kernel, by decide, by decide⟩, by decide +kernel⟩
  have hteam : DifferInBraces plainTeamText bracedTeamText
      ["concept Team", "purpose", "group users"] [] teamEntities :=
    ⟨by decide +kernel, by decide +kernel, hentities, fun _ _ => Or.inr (by decide +kernel),
      by simp⟩
  have hplain : (read plainTeamText "Team.concept").state.contains ['\x7d'] = false := by
    decide +kernel
  have hbraced : (read bracedTeamText "Team.concept").state.contains ['\x7d'] = true := by
    decide +kernel
  rw [hall _ _ _ _ _ "Team.concept" hteam, hplain] at hbraced
  cases hbraced

end Specification

end Concordance
