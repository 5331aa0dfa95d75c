import Concordance.Proofs.Declarations
import Concordance.Proofs.Spans

set_option autoImplicit false

/-!
# Classes in their usual layout

A class is printed line by line: its own line, then its members, each with other lines before it,
its signature on one line, its body and a closing line, and a last brace. Reading the text gives the
members back as methods at the lines on which they were printed. What the lines of a body look like
does not matter, only that they keep braces open: the scan does not stop at them, so they may well
look like declarations.
-/

namespace Concordance

open Text Lexeme

/-! ## The layout -/

/-- A member of a class, as it is written. -/
structure ClassMember where
  /-- The lines that stand before it. -/
  before : List Text
  indent : Text
  isAsync : Bool
  name : Text
  /-- What stands between the parentheses. -/
  parameters : Text
  returnType : Option Text
  body : List Text
  closing : Text

namespace ClassMember

/-- What follows the parameter list on the line of the signature. -/
def ascription (m : ClassMember) : Text :=
  m.returnType.elim [] (fun type => (": " : Text) ++ type) ++ (" \x7b" : Text)

/-- The line of the signature. -/
def signature (m : ClassMember) : Text :=
  m.indent ++ (onlyIf m.isAsync "async " ++
    (m.name ++ '(' :: (m.parameters ++ ')' :: m.ascription)))

/-- Whether the member is a constructor. -/
def isConstructor (m : ClassMember) : Bool := m.name = ("constructor" : Text)

/-- The lines of the member itself. -/
def text (m : ClassMember) : List Text := m.signature :: (m.body ++ [m.closing])

/-- The lines of the member, with those before it. -/
def lines (m : ClassMember) : List Text := m.before ++ m.text

/-- How many braces are open after some of the member's lines. -/
def openAfter (m : ClassMember) (k : Nat) : Int := Extent.braceBalance (m.text.take k).flatten

/-- A member is laid out so that it can be told from what is around it: no method begins on the
lines before it; its name is no word of a statement; and of its own lines, only the closing one
closes all braces. -/
@[mk_iff]
structure IsLaidOut (m : ClassMember) : Prop where
  before : ∀ line ∈ m.before, MethodHead.ofLine? line = none
  indent : isBlankText m.indent = true
  name : IsIdentifier m.name
  not_reserved : ∀ word ∈ MethodHead.reserved, m.name ≠ word
  parameters : IsBalanced '(' ')' m.parameters
  returnType : ∀ type ∈ m.returnType, trim type = type
  no_storage : contains (memberAccess persistenceHandle) m.signature = false
  stays_open : ∀ k ≤ m.body.length, 0 < m.openAfter (k + 1)
  closes : m.openAfter (m.body.length + 2) = 0
  oneLine : ∀ line ∈ m.lines, '\n' ∉ line ∧ line.getLast? ≠ some '\r'

instance (m : ClassMember) : Decidable m.IsLaidOut := decidable_of_iff' _ (isLaidOut_iff m)

/-- The method that a member with its signature on a line of the given number is. -/
def toMethod (m : ClassMember) (number : Nat) : Method :=
  { name := m.name, isAsync := m.isAsync, parameters := Parameters.parse m.parameters,
    returnType := m.returnType.getD [], body := joinWith "\n" m.text,
    isQuery := isQueryName m.name, line := number,
    complexity := Complexity.ofText (joinWith "\n" m.text) }

/-- Members with the numbers of their signatures' lines, if the first line has the given number. -/
def placedFrom : (number : Nat) → List ClassMember → List (Nat × ClassMember)
  | _, [] => []
  | n, m :: rest => (n + m.before.length, m) :: placedFrom (n + m.lines.length) rest

/-- The lines of a class. -/
def classLines (name : Text) (members : List ClassMember) : List Text :=
  ("export default class " ++ (name ++ " \x7b")) :: (members.flatMap lines ++ [("\x7d" : Text)])

/-- A class as a source text. -/
def printClass (name : Text) (members : List ClassMember) : Text :=
  unlines (classLines name members)

variable {m : ClassMember}

/-! ## The signature -/

/-- A signature ends with an opening brace. -/
theorem exists_signature_eq (m : ClassMember) : ∃ front, m.signature = front ++ ['\x7b'] := by
  unfold signature ascription
  exact ⟨m.indent ++ (onlyIf m.isAsync "async " ++ (m.name ++ '(' :: (m.parameters ++
    ')' :: (m.returnType.elim [] (fun type => (": " : Text) ++ type) ++ (" " : Text))))), by simp⟩

/-- The head of a member is read from its signature. -/
theorem ofLine?_signature (h : m.IsLaidOut) :
    MethodHead.ofLine? m.signature = some ⟨m.name, m.isAsync⟩ := by
  obtain ⟨front, hfront⟩ := exists_signature_eq m
  have hend : endsWith ";" (trimEnd m.signature) = false := by
    rw [hfront]
    exact endsWith_trimEnd_concat (by decide) ';' front
  rw [MethodHead.ofLine?_declared m.signature rfl (List.all_eq_true.mp h.indent) h.name
    h.not_reserved hend, h.no_storage, if_neg (by decide)]

/-- The return type of a member is read from its ascription. -/
theorem returnType_ascription (h : ∀ type ∈ m.returnType, trim type = type) :
    SourceModule.returnType m.ascription = m.returnType.getD [] := by
  unfold ascription
  cases htype : m.returnType with
  | none => exact SourceModule.returnType_brace
  | some type =>
    rw [Option.elim_some, List.append_assoc]
    exact SourceModule.returnType_annotated (h type htype)

/-- The parameters and the return type of a member are read from its signature. -/
theorem readSignature_signature (h : m.IsLaidOut) :
    SourceModule.readSignature m.name m.signature =
      (Parameters.parse m.parameters, m.returnType.getD []) := by
  unfold signature
  rw [SourceModule.readSignature_declared (List.all_eq_true.mp h.indent) m.isAsync h.name,
    parenthesized_append h.parameters, Option.map_some, Option.getD_some,
    returnType_ascription h.returnType]

/-! ## The extent -/

end ClassMember

namespace Extent

/-- The empty text has no braces. -/
@[simp] theorem braceBalance_nil : braceBalance [] = 0 := rfl

/-- The first character adds one for an opening brace and takes one off for a closing one. -/
@[simp] theorem braceBalance_cons (c : Char) (t : Text) :
    braceBalance (c :: t) =
      (if c = '\x7b' then 1 else if c = '\x7d' then -1 else 0) + braceBalance t := rfl

/-- Balances add up over texts. -/
@[simp, grind =] theorem braceBalance_append (s t : Text) :
    braceBalance (s ++ t) = braceBalance s + braceBalance t := by
  induction s with
  | nil => simp
  | cons c s ih => simp [ih, Int.add_assoc]

/-- Braces that stay open over some lines are closed on the lines after them, if at all. -/
theorem linesToClose_append {balance : Int} {body : List Text}
    (hopen : ∀ k < body.length, 0 < balance + braceBalance (body.take (k + 1)).flatten)
    (rest : List Text) :
    linesToClose balance (body ++ rest) =
      body.length + linesToClose (balance + braceBalance body.flatten) rest := by
  induction body generalizing balance with
  | nil => simp
  | cons line body ih =>
    have hnow := hopen 0 (by simp)
    simp only [Nat.zero_add, List.take_succ_cons, List.take_zero, List.flatten_cons,
      List.flatten_nil, List.append_nil] at hnow
    have hlater : ∀ k < body.length,
        0 < balance + braceBalance line + braceBalance (body.take (k + 1)).flatten := by
      intro k hk
      simpa [Int.add_assoc] using hopen (k + 1) (by simpa using hk)
    rw [List.cons_append, linesToClose, if_neg (by omega), ih hlater]
    grind

end Extent

namespace ClassMember

variable {m : ClassMember}

/-- The body of a member extends from its first line to its closing one. -/
theorem find?_text (h : m.IsLaidOut) (rest : List Text) :
    Extent.find? 0 (m.text ++ rest) = some ⟨0, m.body.length + 1⟩ := by
  have hopens : 0 < Extent.braceBalance m.signature := by
    have hfirst := h.stays_open 0 (Nat.zero_le _)
    simpa [openAfter, text] using hfirst
  have hlines : Extent.linesToClose (Extent.braceBalance m.signature)
      (m.body ++ m.closing :: rest) = m.body.length + 1 := by
    have hclosed : Extent.braceBalance m.signature + Extent.braceBalance m.body.flatten +
        Extent.braceBalance m.closing = 0 := by
      simpa [openAfter, text, List.take_of_length_le, Int.add_assoc] using h.closes
    rw [Extent.linesToClose_append, Extent.linesToClose, if_pos (Int.le_of_eq hclosed)]
    intro k hk
    simpa [openAfter, text, List.take_append_of_le_length hk] using h.stays_open (k + 1) hk
  have htext : m.text ++ rest = m.signature :: (m.body ++ m.closing :: rest) := by
    simp [text]
  rw [htext, Extent.find?]
  simp only [hopens, if_true, hlines, Nat.zero_add]

/-- The member begins on its first line, whatever follows it. -/
theorem methodAt?_text (h : m.IsLaidOut) (rest : List Text) :
    SourceModule.methodAt? (m.text ++ rest) =
      some (⟨m.name, m.isAsync⟩, ⟨0, m.body.length + 1⟩) := by
  rw [SourceModule.methodAt?_eq_some_iff]
  exact ⟨ofLine?_signature h, find?_text h rest⟩

/-- The member is read from its lines, whatever follows them. -/
theorem readMethod_text (h : m.IsLaidOut) (number : Nat) (rest : List Text) :
    SourceModule.readMethod ⟨m.name, m.isAsync⟩ ⟨0, m.body.length + 1⟩ number (m.text ++ rest) =
      m.toMethod number := by
  have hsignature : (m.text ++ rest).take 1 = [m.signature] := rfl
  have hbody : (m.text ++ rest).take (m.body.length + 1 + 1) = m.text := by
    have hlength : m.text.length = m.body.length + 1 + 1 := by simp [text]
    rw [← hlength, List.take_left]
  have hjoin : joinWith "\n" [m.signature] = m.signature := by simp [joinWith]
  unfold SourceModule.readMethod toMethod
  rw [Nat.zero_add, hsignature, hbody, hjoin, readSignature_signature h]

/-! ## The scan -/

/-- The scan passes over lines on which no method begins. -/
theorem methodsFrom_append_of_none {ls : List Text} (h : ∀ l ∈ ls, MethodHead.ofLine? l = none)
    (number : Nat) (rest : List Text) :
    SourceModule.methodsFrom 0 number (ls ++ rest) =
      SourceModule.methodsFrom 0 (number + ls.length) rest := by
  induction ls generalizing number with
  | nil => rfl
  | cons l ls ih =>
    have hnone : SourceModule.methodAt? (l :: (ls ++ rest)) = none := by
      simp [SourceModule.methodAt?, h l List.mem_cons_self]
    rw [List.cons_append, SourceModule.methodsFrom, hnone]
    simp only
    rw [ih fun k hk => h k (List.mem_cons_of_mem _ hk), List.length_cons]
    congr 1
    omega

/-- The scan takes a member with all its lines, and leaves it out if it is a constructor. -/
theorem methodsFrom_text (h : m.IsLaidOut) (number : Nat) (rest : List Text) :
    SourceModule.methodsFrom 0 number (m.text ++ rest) =
      (if m.isConstructor then [] else [m.toMethod number]) ++
        SourceModule.methodsFrom 0 (number + m.text.length) rest := by
  have hat := methodAt?_text h rest
  have hread := readMethod_text h number rest
  have htext : m.text ++ rest = m.signature :: (m.body ++ [m.closing] ++ rest) := rfl
  have hlength : (m.body ++ [m.closing]).length = m.body.length + 1 := by simp
  have hnext : number + 1 + (m.body ++ [m.closing]).length = number + m.text.length := by
    rw [text, List.length_cons]
    omega
  rw [htext] at hat hread ⊢
  rw [SourceModule.methodsFrom, hat]
  simp only [hread, isConstructor, decide_eq_true_eq]
  rw [SourceModule.methodsFrom_skip, ← hlength, List.drop_left, hnext]

/-- Members that are laid out one after the other are read in order, but for the constructors. -/
theorem methodsFrom_members {members : List ClassMember} (h : ∀ m ∈ members, m.IsLaidOut)
    (number : Nat) (rest : List Text) :
    SourceModule.methodsFrom 0 number (members.flatMap lines ++ rest) =
      (((placedFrom number members).filter fun p => !p.2.isConstructor).map fun p =>
        p.2.toMethod p.1) ++
        SourceModule.methodsFrom 0 (number + (members.flatMap lines).length) rest := by
  induction members generalizing number with
  | nil => rfl
  | cons m members ih =>
    have hm := h m List.mem_cons_self
    have hlength : number + m.before.length + m.text.length = number + m.lines.length := by
      rw [lines, List.length_append]
      omega
    rw [List.flatMap_cons, List.append_assoc, lines, List.append_assoc,
      methodsFrom_append_of_none hm.before, methodsFrom_text hm, hlength,
      ih fun k hk => h k (List.mem_cons_of_mem _ hk), placedFrom, List.filter_cons,
      ← List.append_assoc]
    congr 1
    · cases m.isConstructor <;> simp
    · congr 1
      rw [List.length_append, lines]
      omega

/-! ## The class -/

section ClassText

variable {name : Text} {members : List ClassMember}

/-- The line of the class is none on which a method begins: its first word has another behind it. -/
theorem ofLine?_classLine (rest : Text) :
    MethodHead.ofLine? (("export default class " : Text) ++ rest) = none := by
  have hmodifiers : ∀ word ∈ MethodHead.modifiers,
      keyword? word (("export default class " : Text) ++ rest) = none := by
    intro word hword
    simp only [MethodHead.modifiers, List.mem_cons, List.not_mem_nil, or_false] at hword
    rcases hword with rfl | rfl | rfl | rfl | rfl | rfl <;> rfl
  have hparse : MethodHead.parse? (("export default class " : Text) ++ rest) = none :=
    MethodHead.afterModifiers_of_none hmodifiers
  unfold MethodHead.ofLine?
  rw [hparse]
  rfl

/-- The name of the class is read from the line that exports it. -/
theorem exportedClass?_classLine (hname : IsIdentifier name) (rest : Text) :
    Declaration.exportedClass? (("export default class " : Text) ++ (name ++ ' ' :: rest)) =
      some name := by
  have hexport : keyword? "export" (("export default class " : Text) ++ (name ++ ' ' :: rest)) =
      some (("default class " : Text) ++ (name ++ ' ' :: rest)) := rfl
  have hdefault : skipKeyword "abstract" (skipKeyword "default"
      (("default class " : Text) ++ (name ++ ' ' :: rest))) =
      ("class " : Text) ++ (name ++ ' ' :: rest) := rfl
  have hclass : keyword? "class" (("class " : Text) ++ (name ++ ' ' :: rest)) =
      some (trimStart (name ++ ' ' :: rest)) := rfl
  unfold Declaration.exportedClass?
  simp only [Option.bind_eq_bind, hexport, Option.bind_some, hdefault, hclass,
    trimStart_append_of_identifier hname, identifier?_append hname (c := ' ') (by decide)]

/-- A printed class is exposed under its name. -/
theorem exposedType_printClass (hname : IsIdentifier name) (path : Text) :
    (SourceModule.read (printClass name members) path).exposedType = some name := by
  have hprint : printClass name members = ("export default class " : Text) ++
      (name ++ ' ' :: '\x7b' :: '\n' :: unlines (members.flatMap lines ++ [("\x7d" : Text)])) := by
    simp [printClass, classLines, unlines]
  have hclass := exportedClass?_classLine hname
    ('\x7b' :: '\n' :: unlines (members.flatMap lines ++ [("\x7d" : Text)]))
  have hfirst : firstAtLineStart Declaration.exportedClass? true (printClass name members) =
      some name := by
    rw [hprint]
    exact congrArg (fun found => Option.or found _) hclass
  have hexposed : (SourceModule.read (printClass name members) path).exposedType =
      Declaration.exposedType? (printClass name members) := rfl
  rw [hexposed, Declaration.exposedType?, hfirst]
  rfl

/-- The lines of a printed class are those it is printed with. -/
theorem lines_printClass (hname : IsIdentifier name) (h : ∀ m ∈ members, m.IsLaidOut) :
    Text.lines (printClass name members) = classLines name members := by
  have hline : ∀ line ∈ classLines name members, '\n' ∉ line ∧ line.getLast? ≠ some '\r' := by
    intro line hline
    simp only [classLines, List.mem_cons, List.mem_append, List.mem_flatMap, List.not_mem_nil,
      or_false] at hline
    rcases hline with rfl | ⟨m, hm, hline⟩ | rfl
    · have hfeed : '\n' ∉ name := hname.not_mem (by decide)
      refine ⟨by simp [hfeed], ?_⟩
      have hend : (" \x7b" : Text).getLast? = some '\x7b' := by decide
      rw [← List.append_assoc, List.getLast?_append, hend]
      simp
    · exact (h m hm).oneLine line hline
    · decide
  exact lines_unlines (fun line hl => (hline line hl).1) (fun line hl => (hline line hl).2)

/-- The methods of a printed class are its members, but for constructors, where they were
printed. -/
theorem methods_printClass (hname : IsIdentifier name) (h : ∀ m ∈ members, m.IsLaidOut)
    (path : Text) :
    (SourceModule.read (printClass name members) path).methods =
      ((placedFrom 2 members).filter fun p => !p.2.isConstructor).map
        fun p => p.2.toMethod p.1 := by
  have hmethods : (SourceModule.read (printClass name members) path).methods =
      SourceModule.methodsFrom 0 1 (Text.lines (printClass name members)) := rfl
  have hclass : ∀ line ∈ [("export default class " : Text) ++ (name ++ " \x7b")],
      MethodHead.ofLine? line = none := by
    intro line hline
    rw [List.mem_singleton.mp hline]
    exact ofLine?_classLine _
  have hend : ∀ line ∈ [("\x7d" : Text)], MethodHead.ofLine? line = none := by
    intro line hline
    rw [List.mem_singleton.mp hline]
    decide +kernel
  have hlast : ∀ number, SourceModule.methodsFrom 0 number [("\x7d" : Text)] = [] := by
    intro number
    have := methodsFrom_append_of_none hend number []
    rwa [List.append_nil, SourceModule.methodsFrom] at this
  rw [hmethods, lines_printClass hname h, classLines, ← List.singleton_append,
    methodsFrom_append_of_none hclass, methodsFrom_members h, hlast, List.append_nil]
  rfl

end ClassText

/-! ## Inserting a member -/

/-- Members behind others are placed behind their lines. -/
@[simp, grind =] theorem placedFrom_append (number : Nat) (front back : List ClassMember) :
    placedFrom number (front ++ back) =
      placedFrom number front ++ placedFrom (number + (front.flatMap lines).length) back := by
  induction front generalizing number with
  | nil => rfl
  | cons m front ih =>
    rw [List.cons_append, placedFrom, placedFrom, ih, List.flatMap_cons, List.length_append,
      ← Nat.add_assoc]
    rfl

/-- Members that start later are placed later by as much. -/
theorem placedFrom_add (number k : Nat) (members : List ClassMember) :
    placedFrom (number + k) members =
      (placedFrom number members).map fun p => (p.1 + k, p.2) := by
  induction members generalizing number with
  | nil => rfl
  | cons m members ih =>
    have hnext : number + k + m.lines.length = number + m.lines.length + k := by omega
    have hfirst : number + k + m.before.length = number + m.before.length + k := by omega
    rw [placedFrom, placedFrom, hnext, hfirst, ih]
    rfl

/-- Every placed member is one of the members. -/
theorem mem_of_mem_placedFrom {number : Nat} {members : List ClassMember} {p : Nat × ClassMember}
    (h : p ∈ placedFrom number members) : p.2 ∈ members := by
  induction members generalizing number with
  | nil => simp [placedFrom] at h
  | cons m members ih =>
    rw [placedFrom, List.mem_cons] at h
    rcases h with rfl | h
    · exact List.mem_cons_self
    · exact List.mem_cons_of_mem _ (ih h)

/-- Every member is placed. -/
@[simp] theorem length_placedFrom (number : Nat) (members : List ClassMember) :
    (placedFrom number members).length = members.length := by
  induction members generalizing number with
  | nil => rfl
  | cons m members ih => simp [placedFrom, ih]

/-- Members of which none is a constructor are all kept. -/
theorem filter_placedFrom (number : Nat) {members : List ClassMember}
    (h : ∀ m ∈ members, m.isConstructor = false) :
    ((placedFrom number members).filter fun p => !p.2.isConstructor) =
      placedFrom number members := by
  rw [List.filter_eq_self]
  intro p hp
  rw [h p.2 (mem_of_mem_placedFrom hp)]
  rfl

end ClassMember

/-- A method some lines further down. -/
def Method.movedDown (k : Nat) (d : Method) : Method := { d with line := d.line + k }

namespace ClassMember

/-- Reading a printed class gives its name and its members, in order, as methods with all that was
written and with the numbers of the lines on which they were printed. A constructor that is inserted
among them moves those behind it down by its lines, and changes nothing else. -/
theorem read_printClass (name path : Text) (members : List ClassMember) (hname : IsIdentifier name)
    (hmembers : ∀ m ∈ members, m.IsLaidOut ∧ m.isConstructor = false) :
    (SourceModule.read (printClass name members) path).exposedType = some name ∧
    (SourceModule.read (printClass name members) path).methods =
      (placedFrom 2 members).map (fun p => p.2.toMethod p.1) ∧
    ∀ front back c, members = front ++ back → c.IsLaidOut → c.isConstructor = true →
      (SourceModule.read (printClass name (front ++ c :: back)) path).exposedType = some name ∧
      ∃ earlier later, earlier.length = front.length ∧
        (SourceModule.read (printClass name members) path).methods = earlier ++ later ∧
        (SourceModule.read (printClass name (front ++ c :: back)) path).methods =
          earlier ++ later.map (Method.movedDown c.lines.length) := by
  have hall : (SourceModule.read (printClass name members) path).methods =
      (placedFrom 2 members).map (fun p => p.2.toMethod p.1) := by
    rw [methods_printClass hname (fun m hm => (hmembers m hm).1),
      filter_placedFrom 2 fun m hm => (hmembers m hm).2]
  refine ⟨exposedType_printClass hname path, hall, ?_⟩
  rintro front back c rfl hlaid hctor
  refine ⟨exposedType_printClass hname path,
    (placedFrom 2 front).map (fun p => p.2.toMethod p.1),
    (placedFrom (2 + (front.flatMap lines).length) back).map (fun p => p.2.toMethod p.1),
    ?_, ?_, ?_⟩
  · rw [List.length_map, length_placedFrom]
  · simp [hall]
  · have hinserted : ∀ m ∈ front ++ c :: back, m.IsLaidOut := by
      intro m hm
      rcases List.mem_append.mp hm with hm | hm
      · exact (hmembers m (List.mem_append_left _ hm)).1
      · rcases List.mem_cons.mp hm with rfl | hm
        · exact hlaid
        · exact (hmembers m (List.mem_append_right _ hm)).1
    have hfront : ∀ m ∈ front, m.isConstructor = false := fun m hm =>
      (hmembers m (List.mem_append_left _ hm)).2
    have hback : ∀ m ∈ back, m.isConstructor = false := fun m hm =>
      (hmembers m (List.mem_append_right _ hm)).2
    rw [methods_printClass hname hinserted, placedFrom_append, List.filter_append,
      filter_placedFrom 2 hfront, placedFrom, List.filter_cons_of_neg (by simp [hctor]),
      filter_placedFrom _ hback, List.map_append, placedFrom_add, List.map_map, List.map_map]
    rfl

/-- An asynchronous action below a field, with a nested block and a line that looks like a
declaration. -/
def createMember : ClassMember :=
  { before := ["  private teams: Collection<Team>;", ""], indent := "  ", isAsync := true
    name := "create", parameters := "\x7b name \x7d: \x7b name: string; rank: (a: A) => B \x7d"
    returnType := some "Promise<\x7b team: ID \x7d | \x7b error: string \x7d>"
    body := ["    if (name) \x7b", "      remove(name) \x7b \x7d", "    \x7d",
      "    return \x7b team \x7d"]
    closing := "  \x7d" }

/-- A query without a return type. -/
def membersMember : ClassMember :=
  { before := [""], indent := "  ", isAsync := false, name := "_members", parameters := []
    returnType := none, body := [], closing := "  \x7d" }

/-- A constructor that keeps its parameter. -/
def constructorMember : ClassMember :=
  { before := [""], indent := "  ", isAsync := false, name := "constructor"
    parameters := "private db: Db", returnType := none, body := ["    this.db = db;"]
    closing := "  \x7d" }

/-- A class with an action, a query and, between them, a constructor is read back. -/
theorem team_class_read_back :
    IsIdentifier "TeamConcept" ∧
    (∀ m ∈ [createMember, membersMember], m.IsLaidOut ∧ m.isConstructor = false) ∧
    constructorMember.IsLaidOut ∧
    (SourceModule.read (printClass "TeamConcept" [createMember, membersMember])
      "TeamConcept.ts").methods = [createMember.toMethod 4, membersMember.toMethod 11] ∧
    ∃ earlier later, earlier.length = 1 ∧
      (SourceModule.read (printClass "TeamConcept" [createMember, membersMember])
        "TeamConcept.ts").methods = earlier ++ later ∧
      (SourceModule.read
        (printClass "TeamConcept" [createMember, constructorMember, membersMember])
        "TeamConcept.ts").methods = earlier ++ later.map (Method.movedDown 4) := by
  have hname : IsIdentifier "TeamConcept" := by decide +kernel
  have hmembers : ∀ m ∈ [createMember, membersMember], m.IsLaidOut ∧ m.isConstructor = false := by
    decide +kernel
  have hctor : constructorMember.IsLaidOut := by decide +kernel
  obtain ⟨-, hmethods, hinsert⟩ := read_printClass "TeamConcept" "TeamConcept.ts"
    [createMember, membersMember] hname hmembers
  exact ⟨hname, hmembers, hctor, hmethods,
    (hinsert [createMember] [membersMember] constructorMember rfl hctor rfl).2⟩

end ClassMember

end Concordance
