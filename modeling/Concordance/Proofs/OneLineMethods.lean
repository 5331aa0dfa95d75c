import Concordance.Proofs.ClassLayout
import Concordance.Proofs.Occurrences

set_option autoImplicit false

/-!
# Methods with a body of one line

A body of one line can stand on the line of the signature or below it. On one line, the method is
found unless the database is mentioned there: a line that mentions it is taken for a statement, even
if the mention is in the body (`one_line_method_found_unless_storage`). The return type then goes up
to the first brace outside of angle brackets, and that is the brace of the body only if the type has
none such itself; below the signature the type goes up to the end of the line
(`return_type_of_one_line_iff`).
-/

namespace Concordance

open Text Lexeme

namespace Extent

/-- The balance is the number of opening braces less that of closing ones. -/
theorem braceBalance_eq_count (t : Text) :
    braceBalance t = List.count '\x7b' t - List.count '\x7d' t := by
  induction t with
  | nil => rfl
  | cons c t ih =>
    rw [braceBalance, ih, List.count_cons, List.count_cons]
    by_cases hopen : c = '\x7b'
    · simp [hopen]
      omega
    · by_cases hclose : c = '\x7d'
      · simp [hclose]
        omega
      · simp [hopen, hclose]

/-- A text without braces has balance zero. -/
theorem braceBalance_eq_zero {t : Text} (hopen : '\x7b' ∉ t) (hclose : '\x7d' ∉ t) :
    braceBalance t = 0 := by
  rw [braceBalance_eq_count, List.count_eq_zero.mpr hopen, List.count_eq_zero.mpr hclose]
  rfl

end Extent

/-! ## What stands before the parameters -/

namespace MethodHead

variable {indent name : Text}

/-- Up to the end of its name, a method holds only blanks, letters and the like. -/
theorem not_mem_front (hindent : isBlankText indent = true) (isAsync : Bool)
    (hname : IsIdentifier name) {c : Char} (hblank : isBlank c = false)
    (hc : (startsIdentifier c || inIdentifier c) = false) :
    c ∉ indent ++ (onlyIf isAsync "async " ++ name) := by
  have hletters : ("async " : Text).all (fun d => isBlank d || inIdentifier d) = true := by decide
  have hasync : c ∉ onlyIf isAsync "async " := by
    intro hmem
    cases isAsync with
    | true =>
      have hletter := List.all_eq_true.mp hletters c hmem
      rw [hblank, Bool.false_or] at hletter
      rw [hletter, Bool.or_true] at hc
      cases hc
    | false => simp [onlyIf] at hmem
  simp only [List.mem_append, not_or]
  refine ⟨fun hmem => ?_, hasync, hname.not_mem hc⟩
  have hall := List.all_eq_true.mp hindent c hmem
  rw [hblank] at hall
  cases hall

/-- What stands before the parameters does not mention the storage handle. -/
theorem contains_front (hindent : isBlankText indent = true) (isAsync : Bool)
    (hname : IsIdentifier name) : contains (memberAccess persistenceHandle)
      (indent ++ (onlyIf isAsync "async " ++ name)) = false :=
  contains_eq_false_of_mem (c := '.') (by decide)
    (not_mem_front hindent isAsync hname (by decide) (by decide))

/-- What stands before the parameters has no braces. -/
theorem braceBalance_front (hindent : isBlankText indent = true) (isAsync : Bool)
    (hname : IsIdentifier name) :
    Extent.braceBalance (indent ++ (onlyIf isAsync "async " ++ name)) = 0 :=
  Extent.braceBalance_eq_zero (not_mem_front hindent isAsync hname (by decide) (by decide))
    (not_mem_front hindent isAsync hname (by decide) (by decide))

end MethodHead

/-! ## The two forms -/

/-- A method with a body of one line. -/
structure ShortMethod where
  indent : Text
  isAsync : Bool
  name : Text
  /-- What stands between the parentheses. -/
  parameters : Text
  returnType : Option Text
  body : Text

namespace ShortMethod

/-- The method with its body below the signature. -/
def toMember (m : ShortMethod) : ClassMember :=
  { before := [], indent := m.indent, isAsync := m.isAsync, name := m.name
    parameters := m.parameters, returnType := m.returnType, body := [m.body]
    closing := m.indent ++ "\x7d" }

/-- The method on one line. -/
def line (m : ShortMethod) : Text := m.toMember.signature ++ ' ' :: (m.body ++ " \x7d")

/-- The method on three lines. -/
def lines (m : ShortMethod) : List Text := m.toMember.text

/-- Whether the database is mentioned in the method. -/
def holdsStorage (m : ShortMethod) : Bool :=
  [m.parameters, m.returnType.getD [], m.body].any (contains (memberAccess persistenceHandle))

/-- The method can be told from a statement by its name, and every part of it closes what it
opens. -/
@[mk_iff]
structure WellFormed (m : ShortMethod) : Prop where
  indent : isBlankText m.indent = true
  name : IsIdentifier m.name
  not_reserved : ∀ word ∈ MethodHead.reserved, m.name ≠ word
  not_constructor : m.name ≠ "constructor"
  parentheses : IsBalanced '(' ')' m.parameters
  parameters : Extent.braceBalance m.parameters = 0
  returnType : ∀ type ∈ m.returnType,
    type ≠ [] ∧ trim type = type ∧ Extent.braceBalance type = 0
  body : Extent.braceBalance m.body = 0

instance (m : ShortMethod) : Decidable m.WellFormed := decidable_of_iff' _ (wellFormed_iff m)

variable {m : ShortMethod}

/-- The line ends with a closing brace. -/
theorem exists_line_eq (m : ShortMethod) : ∃ front, m.line = front ++ ['\x7d'] :=
  ⟨m.toMember.signature ++ ' ' :: (m.body ++ " "), by simp [line]⟩

/-- The signature is what stands before the parameters, these in parentheses, and what follows. -/
theorem signature_eq (m : ShortMethod) :
    m.toMember.signature = (m.indent ++ (onlyIf m.isAsync "async " ++ m.name)) ++
      '(' :: (m.parameters ++ ')' :: m.toMember.ascription) := by
  simp [ClassMember.signature, toMember]

/-- The line is its parts one after the other. -/
theorem line_eq (m : ShortMethod) :
    m.line = m.indent ++ (onlyIf m.isAsync "async " ++ (m.name ++ '(' :: (m.parameters ++
      ')' :: (m.toMember.ascription ++ ' ' :: (m.body ++ " \x7d"))))) := by
  simp [line, ClassMember.signature, toMember]

/-- The signature opens one brace. -/
theorem braceBalance_signature (h : m.WellFormed) :
    Extent.braceBalance m.toMember.signature = 1 := by
  have hascription : Extent.braceBalance m.toMember.ascription = 1 := by
    unfold ClassMember.ascription toMember
    cases htype : m.returnType with
    | none => rfl
    | some type =>
      simp [(h.returnType type htype).2.2]
  rw [signature_eq, Extent.braceBalance_append,
    MethodHead.braceBalance_front h.indent m.isAsync h.name]
  simp [hascription, h.parameters]

/-- The line is the whole of the method. -/
theorem find?_line (h : m.WellFormed) : Extent.find? 0 [m.line] = some ⟨0, 0⟩ := by
  have hbalance : Extent.braceBalance m.line = 0 := by
    simp [line, braceBalance_signature h, h.body]
  have hwhole : Extent.isWhole m.line = true := by
    obtain ⟨front, hfront⟩ := exists_line_eq m
    obtain ⟨opening, hopening⟩ := ClassMember.exists_signature_eq m.toMember
    have hend : endsWith "\x7d" (trimEnd m.line) = true := by
      rw [hfront]
      exact endsWith_trimEnd_concat (by decide) '\x7d' front
    have hbrace : m.line.any (· = '\x7b') = true := by
      rw [List.any_eq_true]
      exact ⟨'\x7b', by simp [line, hopening], rfl⟩
    rw [Extent.isWhole, hend, hbrace]
    rfl
  simp [Extent.find?, hbalance, hwhole]

/-- The three lines are the whole of the method. -/
theorem find?_lines (h : m.WellFormed) : Extent.find? 0 m.lines = some ⟨0, 2⟩ := by
  have hopen := braceBalance_signature h
  have hlines : m.lines = [m.toMember.signature, m.body, m.indent ++ "\x7d"] := rfl
  rw [hlines, Extent.find?]
  simp [Extent.linesToClose, hopen, h.body]

/-! ## Mentions of the database -/

/-- Whatever separates the parts of a signature stands in no mention of the database. -/
theorem contains_signature (h : m.WellFormed) :
    contains (memberAccess persistenceHandle) m.toMember.signature =
      (contains (memberAccess persistenceHandle) m.parameters ||
        contains (memberAccess persistenceHandle) (m.returnType.getD [])) := by
  have hascription : contains (memberAccess persistenceHandle) m.toMember.ascription =
      contains (memberAccess persistenceHandle) (m.returnType.getD []) := by
    unfold ClassMember.ascription toMember
    cases m.returnType with
    | none => rfl
    | some type =>
      have hsplit : (": " : Text) ++ type ++ (" \x7b" : Text) =
          [':'] ++ ' ' :: (type ++ ' ' :: ['\x7b']) := by simp
      rw [Option.elim_some, Option.getD_some, hsplit, contains_append_cons (by decide),
        contains_append_cons (by decide)]
      have hcolon : contains (memberAccess persistenceHandle) [':'] = false := by decide
      have hbrace : contains (memberAccess persistenceHandle) ['\x7b'] = false := by decide
      rw [hcolon, hbrace, Bool.false_or, Bool.or_false]
  rw [signature_eq, contains_append_cons (by decide), contains_append_cons (by decide),
    MethodHead.contains_front h.indent m.isAsync h.name, hascription, Bool.false_or]

/-- The line mentions the storage handle just if the method holds it. -/
theorem contains_line (h : m.WellFormed) :
    contains (memberAccess persistenceHandle) m.line = m.holdsStorage := by
  have hsplit : m.line = m.toMember.signature ++ ' ' :: (m.body ++ ' ' :: ['\x7d']) := by
    simp [line]
  have hbrace : contains (memberAccess persistenceHandle) ['\x7d'] = false := by decide
  rw [hsplit, contains_append_cons (by decide), contains_append_cons (by decide),
    contains_signature h, hbrace, Bool.or_false]
  simp [holdsStorage, Bool.or_assoc]

/-! ## Finding the method -/

/-- The head of the method is read from its line, unless this mentions the storage handle. -/
theorem ofLine?_line (h : m.WellFormed) :
    MethodHead.ofLine? m.line = if m.holdsStorage then none else some ⟨m.name, m.isAsync⟩ := by
  obtain ⟨front, hfront⟩ := exists_line_eq m
  have hend : endsWith ";" (trimEnd m.line) = false := by
    rw [hfront]
    exact endsWith_trimEnd_concat (by decide) ';' front
  rw [MethodHead.ofLine?_declared m.line m.line_eq (List.all_eq_true.mp h.indent) h.name
    h.not_reserved
    hend, contains_line h]

/-- A line that does not mention the storage handle is read as the method. -/
theorem methods_of_line (h : m.WellFormed) (hstorage : m.holdsStorage = false) {source : Text}
    (hsource : Text.lines source = [m.line]) (path : Text) :
    (SourceModule.read source path).methods =
      [SourceModule.readMethod ⟨m.name, m.isAsync⟩ ⟨0, 0⟩ 1 [m.line]] := by
  have hhead : MethodHead.ofLine? m.line = some ⟨m.name, m.isAsync⟩ := by
    rw [ofLine?_line h, hstorage, if_neg (by decide)]
  have hfound : SourceModule.methodAt? [m.line] = some (⟨m.name, m.isAsync⟩, ⟨0, 0⟩) :=
    SourceModule.methodAt?_eq_some_iff.mpr ⟨hhead, find?_line h⟩
  exact SourceModule.methods_of_methodAt? hsource hfound h.not_constructor (Nat.le_refl 1) path

/-- A method that is written on one line is found, with its name, whether it is asynchronous, and
the line as its text, unless the database is mentioned in its parameters, its return type or its
body. A line that mentions the database is no method. -/
theorem one_line_method_found_unless_storage (m : ShortMethod) (source path : Text)
    (h : m.WellFormed) (hsource : Text.lines source = [m.line]) :
    (m.holdsStorage = false → ∃ d, (SourceModule.read source path).methods = [d] ∧
      d.name = m.name ∧ d.isAsync = m.isAsync ∧ d.body = m.line) ∧
    (m.holdsStorage = true → (SourceModule.read source path).methods = []) := by
  constructor
  · intro hstorage
    refine ⟨_, methods_of_line h hstorage hsource path, rfl, rfl, ?_⟩
    simp [SourceModule.readMethod, joinWith]
  · intro hstorage
    have hhead : MethodHead.ofLine? m.line = none := by
      rw [ofLine?_line h, hstorage, if_pos rfl]
    have hnone := ClassMember.methodsFrom_append_of_none (List.forall_mem_singleton.mpr hhead) 1 []
    change SourceModule.methodsFrom 0 1 (Text.lines source) = []
    rw [hsource]
    rwa [List.append_nil, SourceModule.methodsFrom] at hnone

/-- A query on one line, with a call and a nested block in its body. -/
def sizeQuery : ShortMethod :=
  { indent := "  ", isAsync := true, name := "_size", parameters := "team: ID, f = (a) => \x7b\x7d"
    returnType := none, body := "if (team) \x7b await load(team); \x7d return 1;" }

/-- A query on one line with a nested block in its body is found, with the line as its text. -/
theorem size_query_found :
    sizeQuery.WellFormed ∧ Text.lines sizeQuery.line = [sizeQuery.line] ∧
    ∃ d, (SourceModule.read sizeQuery.line "Team.ts").methods = [d] ∧
      d.name = "_size" ∧ d.isAsync = true ∧ d.body = sizeQuery.line := by
  have h : sizeQuery.WellFormed := by decide +kernel
  have hlines : Text.lines sizeQuery.line = [sizeQuery.line] := by decide +kernel
  exact ⟨h, hlines, (one_line_method_found_unless_storage sizeQuery _ "Team.ts" h hlines).1
    (by decide +kernel)⟩

/-- A method on one line that reads from the database. -/
def countMethod : ShortMethod :=
  { indent := [], isAsync := false, name := "count", parameters := [], returnType := none
    body := "return this.db.size;" }

/-- A method on one line that mentions the storage handle is not found. -/
theorem count_method_not_found :
    countMethod.WellFormed ∧ countMethod.line = "count() \x7b return this.db.size; \x7d" ∧
    Text.lines countMethod.line = [countMethod.line] ∧
    (SourceModule.read countMethod.line "Team.ts").methods = [] := by
  decide +kernel

end ShortMethod

/-! ## Braces and angle brackets -/

namespace Text

/-- How a character changes the number of open angle brackets. The arrow of a function type closes
none. -/
def angleStep (previous c : Char) : Int :=
  if c = '<' then 1 else if c = '>' ∧ previous ≠ '=' then -1 else 0

/-- The number of angle brackets that a text behind a character opens, less those that it closes. -/
def angleLevel : (previous : Char) → Text → Int
  | _, [] => 0
  | previous, c :: t => angleStep previous c + angleLevel c t

/-- Every opening brace of a text stands inside of angle brackets, if the text comes at some depth
behind a character. -/
def InAngles (depth : Int) (previous : Char) (t : Text) : Prop :=
  ∀ front ∈ t.inits, front ++ ['\x7b'] <+: t → 0 < depth + angleLevel previous front

/-- Every opening brace of a type stands inside of angle brackets. -/
def BracesInAngles (type : Text) : Prop := InAngles 0 ' ' type

instance (type : Text) : Decidable (BracesInAngles type) :=
  inferInstanceAs (Decidable (∀ front ∈ type.inits, _))

variable {depth : Int} {previous c : Char} {t front rest : Text}

/-- The empty text has no brace outside of angle brackets. -/
@[simp] theorem inAngles_nil : InAngles depth previous [] := by
  simp [InAngles]

/-- The first character is no brace outside of angle brackets, and the rest has none either. -/
@[simp, grind =] theorem inAngles_cons :
    InAngles depth previous (c :: t) ↔
      (c = '\x7b' → 0 < depth) ∧ InAngles (depth + angleStep previous c) c t := by
  simp only [InAngles, List.inits_cons, List.forall_mem_cons, List.forall_mem_map, List.nil_append,
    List.cons_append, List.cons_prefix_cons, List.nil_prefix, and_true, true_and, angleLevel,
    Int.add_zero, Int.add_assoc, eq_comm]

/-- A brace inside of angle brackets stands at a positive level. -/
theorem InAngles.pos (h : InAngles depth previous (front ++ '\x7b' :: rest)) :
    0 < depth + angleLevel previous front :=
  h front (by simp) (by simp)

end Text

namespace SourceModule

open Text

variable {depth : Int} {previous c : Char} {s t : Text}

/-- A character that is no brace outside of angle brackets belongs to the type. -/
theorem beforeBrace_cons (h : ¬ (c = '\x7b' ∧ depth ≤ 0)) :
    beforeBrace depth previous (c :: t) =
      c :: beforeBrace (depth + angleStep previous c) c t := by
  rw [beforeBrace, angleStep]
  by_cases hopen : c = '<'
  · simp only [hopen, if_true]
  · by_cases hclose : c = '>' ∧ previous ≠ '='
    · rw [if_neg hopen, if_neg hopen, if_pos hclose, if_pos hclose, Int.sub_eq_add_neg]
    · rw [if_neg hopen, if_neg hopen, if_neg hclose, if_neg hclose, if_neg h, Int.add_zero]

/-- A brace outside of angle brackets ends the type. -/
theorem beforeBrace_brace (h : depth ≤ 0) : beforeBrace depth previous ('\x7b' :: t) = [] := by
  rw [beforeBrace, if_neg (by decide), if_neg (by simp), if_pos ⟨rfl, h⟩]

/-- A text whose braces are inside of angle brackets belongs to the type. -/
theorem beforeBrace_append (h : InAngles depth previous s) (t : Text) :
    beforeBrace depth previous (s ++ t) =
      s ++ beforeBrace (depth + angleLevel previous s) (s.getLast?.getD previous) t := by
  induction s generalizing depth previous with
  | nil => simp [angleLevel]
  | cons c s ih =>
    obtain ⟨hbrace, hrest⟩ := inAngles_cons.mp h
    have hpass : ¬ (c = '\x7b' ∧ depth ≤ 0) := by
      rintro ⟨hc, hdepth⟩
      have hpos := hbrace hc
      omega
    rw [List.cons_append, beforeBrace_cons hpass, ih hrest, List.getLast?_cons, Option.getD_some,
      angleLevel, Int.add_assoc, List.cons_append]

/-- The first brace outside of angle brackets ends the type. -/
theorem beforeBrace_of_first {front : Text} (h : InAngles depth previous front)
    (hlevel : depth + angleLevel previous front ≤ 0) (rest : Text) :
    beforeBrace depth previous (front ++ '\x7b' :: rest) = front := by
  rw [beforeBrace_append h, beforeBrace_brace hlevel, List.append_nil]

/-- All braces are inside of angle brackets, or there is a first one that is not. -/
theorem inAngles_or_exists_first (depth : Int) (previous : Char) (t : Text) :
    InAngles depth previous t ∨ ∃ front rest, t = front ++ '\x7b' :: rest ∧
      InAngles depth previous front ∧ depth + angleLevel previous front ≤ 0 := by
  induction t generalizing depth previous with
  | nil => exact Or.inl inAngles_nil
  | cons c t ih =>
    by_cases hhere : c = '\x7b' ∧ depth ≤ 0
    · refine Or.inr ⟨[], t, by rw [hhere.1, List.nil_append], inAngles_nil, ?_⟩
      rw [angleLevel, Int.add_zero]
      exact hhere.2
    · have hpos : c = '\x7b' → 0 < depth := by
        intro hc
        by_contra hdepth
        exact hhere ⟨hc, by omega⟩
      -- What stands behind `c` is judged at the depth that `c` leads to.
      rcases ih (depth + angleStep previous c) c with hall | ⟨front, rest, rfl, hfront, hlevel⟩
      · exact Or.inl (inAngles_cons.mpr ⟨hpos, hall⟩)
      · refine Or.inr ⟨c :: front, rest, rfl, inAngles_cons.mpr ⟨hpos, hfront⟩, ?_⟩
        rw [angleLevel, ← Int.add_assoc]
        exact hlevel

/-- A type is told from the body behind it just if its own braces stand inside of angle brackets and
it leaves none of these open. -/
theorem trim_beforeBrace_eq_iff {type : Text} (hne : type ≠ []) (htrim : trim type = type)
    (rest : Text) :
    trim (beforeBrace 0 ' ' (type ++ ' ' :: '\x7b' :: rest)) = type ↔
      BracesInAngles type ∧ angleLevel ' ' type ≤ 0 := by
  rcases inAngles_or_exists_first 0 ' ' type with hinside | ⟨front, more, rfl, hfront, hlevel⟩
  · have hblank : ∀ last, beforeBrace (angleLevel ' ' type) last (' ' :: '\x7b' :: rest) =
        ' ' :: beforeBrace (angleLevel ' ' type) ' ' ('\x7b' :: rest) := by
      intro last
      rw [beforeBrace_cons (by simp)]
      simp [angleStep]
    rw [beforeBrace_append hinside, Int.zero_add, hblank]
    by_cases hclosed : angleLevel ' ' type ≤ 0
    · rw [beforeBrace_brace hclosed, trim_append_of_isBlank (by decide), htrim]
      exact iff_of_true rfl ⟨hinside, hclosed⟩
    · -- The brace of the body then counts as one of the type.
      rw [beforeBrace_cons (fun hbrace => hclosed hbrace.2),
        trim_append_space_cons hne (trimStart_eq_self_of_trim htrim) (by decide)]
      refine iff_of_false (fun heq => ?_) (fun hboth => hclosed hboth.2)
      simp at heq
  · rw [List.append_assoc, List.cons_append, beforeBrace_of_first hfront hlevel]
    refine iff_of_false (fun heq => ?_) (fun hboth => ?_)
    · -- Trimming does not give back what was cut off.
      have hlength := length_trim_le front
      rw [heq, List.length_append, List.length_cons] at hlength
      omega
    · have hpos := hboth.1.pos
      omega

/-- The return type of a method on one line is cut from what follows its parameters. -/
theorem returnType_one_line {type : Text} (hne : type ≠ []) (htrim : trim type = type)
    (body : Text) :
    returnType ((": " : Text) ++ type ++ (" \x7b" : Text) ++ ' ' :: (body ++ " \x7d")) =
      trim (beforeBrace 0 ' ' (type ++ ' ' :: '\x7b' :: ' ' :: (body ++ " \x7d"))) := by
  have hsplit : (": " : Text) ++ type ++ (" \x7b" : Text) ++ ' ' :: (body ++ " \x7d") =
      (":" : Text) ++ (' ' :: (type ++ ' ' :: '\x7b' :: ' ' :: body) ++ (" \x7d" : Text)) := by
    simp
  have hwhole : trim ((":" : Text) ++ (' ' :: (type ++ ' ' :: '\x7b' :: ' ' :: body) ++
      (" \x7d" : Text))) =
      (":" : Text) ++ (' ' :: (type ++ ' ' :: '\x7b' :: ' ' :: body) ++ (" \x7d" : Text)) := by
    rw [← List.append_assoc]
    exact trim_append (by simp) (trimStartOf_cons_of_neg (by decide)) (by simp) (by decide)
  have hannotated : trim (' ' :: (type ++ ' ' :: '\x7b' :: ' ' :: body) ++ (" \x7d" : Text)) =
      type ++ ' ' :: '\x7b' :: ' ' :: body ++ (" \x7d" : Text) := by
    rw [List.cons_append, trim_cons_of_isBlank (by decide)]
    exact trim_append (by simp) (trimStartOf_append hne (trimStart_eq_self_of_trim htrim)) (by simp)
      (by decide)
  have hnone :
      before? "\x7b" (type ++ ' ' :: '\x7b' :: ' ' :: body ++ (" \x7d" : Text)) = none := by
    rw [← Option.not_isSome_iff_eq_none]
    intro hsome
    have hlast := (endsWith_iff.mp hsome).getLast (by simp)
    simp at hlast
  unfold returnType
  rw [hsplit]
  simp only [hwhole, after?_append, hannotated, hnone, Option.getD_none]
  simp

end SourceModule

namespace ShortMethod

variable {m : ShortMethod} {type : Text}

/-- On one line the return type is what stands before the first brace outside of angle brackets. -/
theorem readSignature_line (h : m.WellFormed) (htype : m.returnType = some type) :
    (SourceModule.readSignature m.name m.line).2 =
      trim (SourceModule.beforeBrace 0 ' '
        (type ++ ' ' :: '\x7b' :: ' ' :: (m.body ++ " \x7d"))) := by
  obtain ⟨hne, htrim, -⟩ := h.returnType type htype
  have hascription : m.toMember.ascription = (": " : Text) ++ type ++ (" \x7b" : Text) := by
    simp [ClassMember.ascription, toMember, htype]
  rw [line_eq, SourceModule.readSignature_declared (List.all_eq_true.mp h.indent) m.isAsync h.name,
    parenthesized_append h.parentheses, Option.map_some, Option.getD_some, hascription]
  exact SourceModule.returnType_one_line hne htrim m.body

/-- On lines of its own the signature has the return type of the method. -/
theorem readSignature_signature (h : m.WellFormed) (htype : m.returnType = some type) :
    (SourceModule.readSignature m.name m.toMember.signature).2 = type := by
  have htrim : ∀ t ∈ m.toMember.returnType, trim t = t := fun t ht => (h.returnType t ht).2.1
  have hsignature : m.toMember.signature = m.indent ++ (onlyIf m.isAsync "async " ++
      (m.name ++ '(' :: (m.parameters ++ ')' :: m.toMember.ascription))) := rfl
  rw [hsignature,
    SourceModule.readSignature_declared (List.all_eq_true.mp h.indent) m.isAsync h.name,
    parenthesized_append h.parentheses, Option.map_some, Option.getD_some,
    ClassMember.returnType_ascription htrim]
  exact congrArg (Option.getD · []) htype

/-- Three lines that do not mention the storage handle are read as the method. -/
theorem methods_of_lines (h : m.WellFormed) (hstorage : m.holdsStorage = false) {source : Text}
    (hsource : Text.lines source = m.lines) (path : Text) :
    (SourceModule.read source path).methods =
      [SourceModule.readMethod ⟨m.name, m.isAsync⟩ ⟨0, 2⟩ 1 m.lines] := by
  have hparts : contains (memberAccess persistenceHandle) m.toMember.signature = false := by
    rw [contains_signature h]
    simp only [holdsStorage, List.any_cons, Bool.or_eq_false_iff] at hstorage ⊢
    exact ⟨hstorage.1, hstorage.2.1⟩
  have hhead : MethodHead.ofLine? m.toMember.signature = some ⟨m.name, m.isAsync⟩ := by
    obtain ⟨front, hfront⟩ := ClassMember.exists_signature_eq m.toMember
    have hend : endsWith ";" (trimEnd m.toMember.signature) = false := by
      rw [hfront]
      exact endsWith_trimEnd_concat (by decide) ';' front
    rw [MethodHead.ofLine?_declared m.toMember.signature rfl (List.all_eq_true.mp h.indent) h.name
      h.not_reserved hend, hparts, if_neg (by decide)]
    rfl
  have hfound : SourceModule.methodAt? m.lines = some (⟨m.name, m.isAsync⟩, ⟨0, 2⟩) :=
    SourceModule.methodAt?_eq_some_iff.mpr ⟨hhead, find?_lines h⟩
  exact SourceModule.methods_of_methodAt? hsource hfound h.not_constructor (Nat.le_refl 3) path

/-- With its body below the signature, a method has the return type that is written. On one line it
has it just if every brace of the type stands inside of angle brackets and the type leaves none of
these open; and if the type has a brace outside, only what stands before the first such brace is
kept. -/
theorem return_type_of_one_line_iff (m : ShortMethod) (type oneLine spread path : Text)
    (h : m.WellFormed) (htype : m.returnType = some type) (hstorage : m.holdsStorage = false)
    (hline : Text.lines oneLine = [m.line]) (hlines : Text.lines spread = m.lines) :
    (∃ d, (SourceModule.read spread path).methods = [d] ∧ d.returnType = type) ∧
    ∃ d, (SourceModule.read oneLine path).methods = [d] ∧
      (d.returnType = type ↔ BracesInAngles type ∧ angleLevel ' ' type ≤ 0) ∧
      ∀ front rest, type = front ++ '\x7b' :: rest → BracesInAngles front →
        angleLevel ' ' front ≤ 0 → d.returnType = trim front := by
  obtain ⟨hne, htrim, -⟩ := h.returnType type htype
  have hjoin : ∀ t : Text, joinWith "\n" [t] = t := by simp [joinWith]
  refine ⟨⟨_, methods_of_lines h hstorage hlines path, ?_⟩,
    ⟨_, methods_of_line h hstorage hline path, ?_, ?_⟩⟩
  · have hsignature : m.lines.take (0 + 1) = [m.toMember.signature] := rfl
    unfold SourceModule.readMethod
    rw [hsignature, hjoin]
    exact readSignature_signature h htype
  all_goals
    have hreturn : (SourceModule.readMethod ⟨m.name, m.isAsync⟩ ⟨0, 0⟩ 1 [m.line]).returnType =
        trim (SourceModule.beforeBrace 0 ' '
          (type ++ ' ' :: '\x7b' :: ' ' :: (m.body ++ " \x7d"))) := by
      have hsignature : [m.line].take (0 + 1) = [m.line] := rfl
      unfold SourceModule.readMethod
      rw [hsignature, hjoin]
      exact readSignature_line h htype
    rw [hreturn]
  · exact SourceModule.trim_beforeBrace_eq_iff hne htrim _
  · rintro front rest hsplit hfront hlevel
    rw [hsplit, List.append_assoc, List.cons_append,
      SourceModule.beforeBrace_of_first hfront (by rwa [Int.zero_add])]

/-- A method whose return type has braces and an arrow inside of angle brackets. -/
def totalMethod : ShortMethod :=
  { indent := "  ", isAsync := true, name := "total", parameters := "by: ID"
    returnType := some "Promise<\x7b next: (a: A) => B \x7d | \x7b error: string \x7d>"
    body := "return this.sum(\x7b by \x7d);" }

/-- The type of the total, with its braces inside of angle brackets, is the same on one line and on
three. -/
theorem total_type_in_both_forms :
    totalMethod.WellFormed ∧
    (∃ d, (SourceModule.read (joinWith "\n" totalMethod.lines) "Team.ts").methods = [d] ∧
      d.returnType = "Promise<\x7b next: (a: A) => B \x7d | \x7b error: string \x7d>") ∧
    ∃ d, (SourceModule.read totalMethod.line "Team.ts").methods = [d] ∧
      d.returnType = "Promise<\x7b next: (a: A) => B \x7d | \x7b error: string \x7d>" := by
  have h : totalMethod.WellFormed := by decide +kernel
  obtain ⟨hspread, d, hmethods, hiff, -⟩ := return_type_of_one_line_iff totalMethod _
    totalMethod.line (joinWith "\n" totalMethod.lines) "Team.ts" h rfl (by decide +kernel)
    (by decide +kernel) (by decide +kernel)
  exact ⟨h, hspread, d, hmethods, hiff.mpr (by decide +kernel)⟩

/-- A method whose return type is an object type. -/
def sizeMethod : ShortMethod :=
  { indent := [], isAsync := false, name := "size", parameters := []
    returnType := some "\x7b n: number \x7d", body := "return \x7b n: 1 \x7d;" }

/-- An object type is lost where the method stands on one line, and kept where it stands on
three. -/
theorem object_type_lost_on_one_line :
    sizeMethod.WellFormed ∧ IsNested "\x7b n: number \x7d" ∧ sizeMethod.holdsStorage = false ∧
    sizeMethod.line = "size(): \x7b n: number \x7d \x7b return \x7b n: 1 \x7d; \x7d" ∧
    Text.lines sizeMethod.line = [sizeMethod.line] ∧
    (SourceModule.read sizeMethod.line "Team.ts").methods.map Method.returnType = [[]] ∧
    (SourceModule.read (joinWith "\n" sizeMethod.lines) "Team.ts").methods.map Method.returnType =
      ["\x7b n: number \x7d"] := by
  decide +kernel

end ShortMethod

end Concordance
