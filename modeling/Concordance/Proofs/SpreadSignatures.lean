import Concordance.Proofs.OneLineMethods

set_option autoImplicit false

/-!
# Signatures over several lines

The parameters of a method can stand on lines of their own. The search for the body passes over
these lines one by one, and each of them can end it: a line with as many braces of both kinds that
ends with a closing one counts as a whole method, and a line that ends with a semicolon counts as a
statement. A method is therefore read whole just if no line of its parameters ends so, and otherwise
it is cut behind the first of them (`spread_method_whole_iff`).
-/

namespace Concordance

open Text Lexeme

/-! ## Balanced texts -/

namespace Text

variable {opening closing : Char} {s t : Text}

/-- Balanced texts are balanced together. -/
theorem IsBalanced.append (hs : IsBalanced opening closing s) (ht : IsBalanced opening closing t) :
    IsBalanced opening closing (s ++ t) := by
  refine ⟨by rw [List.count_append, List.count_append, hs.1, ht.1], fun front hfront => ?_⟩
  obtain ⟨rest, hsplit⟩ := (List.mem_inits _ _).mp hfront
  rcases List.append_eq_append_iff.mp hsplit with ⟨more, rfl, -⟩ | ⟨more, rfl, rfl⟩
  · exact hs.2 front ((List.mem_inits _ _).mpr (List.prefix_append front more))
  · have hmore := ht.2 more ((List.mem_inits _ _).mpr (List.prefix_append more rest))
    rw [List.count_append, List.count_append, hs.1]
    omega

/-- A text without the two brackets is balanced. -/
theorem isBalanced_of_not_mem (hopening : opening ∉ t) (hclosing : closing ∉ t) :
    IsBalanced opening closing t := by
  refine ⟨by rw [List.count_eq_zero.mpr hopening, List.count_eq_zero.mpr hclosing], ?_⟩
  intro front hfront
  have hsub := (List.mem_inits _ _).mp hfront
  rw [List.count_eq_zero.mpr fun hmem => hclosing (hsub.mem hmem)]
  exact Nat.zero_le _

/-- A parenthesis before a balanced text is not closed in it. -/
theorem parenthesized_eq_none (h : IsBalanced '(' ')' t) : parenthesized t = none := by
  have hdisjoint : ∀ c : Char, decide (c = '(') = true → decide (c = ')') = false := by
    intro c hc
    simp only [decide_eq_true_eq] at hc
    subst hc
    rfl
  rw [← Option.not_isSome_iff_eq_none, Option.isSome_iff_exists]
  rintro ⟨⟨inner, rest⟩, hsome⟩
  obtain ⟨hinner, c, hc, rfl⟩ := of_enclosedFrom hdisjoint hsome
  obtain rfl : c = ')' := of_decide_eq_true hc
  have hequal : List.count ')' inner = List.count '(' inner := hinner.1
  have hfront := h.2 (inner ++ [')']) ((List.mem_inits _ _).mpr (by simp))
  rw [List.count_append, List.count_append, hequal, List.count_singleton_self,
    List.count_eq_zero.mpr (by decide : '(' ∉ [')'])] at hfront
  omega

/-- Lines that are balanced are so behind line feeds. -/
theorem isBalanced_furtherLines {ls : List Text} (h : ∀ l ∈ ls, IsBalanced '(' ')' l) :
    IsBalanced '(' ')' (furtherLines ls) := by
  induction ls with
  | nil => exact isBalanced_of_not_mem (by simp [furtherLines]) (by simp [furtherLines])
  | cons l ls ih =>
    have hline : IsBalanced '(' ')' ('\n' :: l) :=
      IsBalanced.append (s := ['\n']) (by decide) (h l List.mem_cons_self)
    exact hline.append (ih fun k hk => h k (List.mem_cons_of_mem l hk))

end Text

/-! ## Lines that end the search -/

namespace Extent

/-- A line whose braces balance ends the search for the body: with a closing brace it counts as a
whole method, with a semicolon as a statement. -/
def endsSearch (line : Text) : Bool :=
  endsWith "\x7d" (trimEnd line) || endsWith ";" (trimEnd line)

variable {line : Text} {front : List Text}

/-- A balanced line is a whole method just if it ends with a closing brace, blanks aside. -/
theorem isWhole_eq_endsWith (h : braceBalance line = 0) :
    isWhole line = endsWith "\x7d" (trimEnd line) := by
  unfold isWhole
  cases hend : endsWith "\x7d" (trimEnd line) with
  | false => rfl
  | true =>
    -- The closing brace at the end has an opening one before it.
    obtain ⟨back, hback, -⟩ := exists_trimEnd_append line
    have hclosing : '\x7d' ∈ line := by
      rw [hback]
      exact List.mem_append_left _ ((endsWith_iff.mp hend).mem (by decide))
    have hcount := List.count_pos_iff.mpr hclosing
    rw [braceBalance_eq_count] at h
    have hopening : '\x7b' ∈ line := List.count_pos_iff.mp (by omega)
    rw [Bool.true_and, List.any_eq_true]
    exact ⟨'\x7b', hopening, rfl⟩

/-- The search decides on a balanced line by its end. -/
theorem find?_cons_of_balanced (h : braceBalance line = 0) (n : Nat) (rest : List Text) :
    find? n (line :: rest) =
      if endsWith "\x7d" (trimEnd line) then some ⟨n, n⟩
      else if endsWith ";" (trimEnd line) then none else find? (n + 1) rest := by
  rw [find?]
  simp [h, isWhole_eq_endsWith h]

/-- The search goes on behind balanced lines that do not end it. -/
theorem find?_append (h : ∀ l ∈ front, braceBalance l = 0 ∧ endsSearch l = false) (n : Nat)
    (rest : List Text) : find? n (front ++ rest) = find? (n + front.length) rest := by
  induction front generalizing n with
  | nil => rfl
  | cons l front ih =>
    obtain ⟨hbalance, hends⟩ := h l List.mem_cons_self
    simp only [endsSearch, Bool.or_eq_false_iff] at hends
    rw [List.cons_append, find?_cons_of_balanced hbalance, hends.1, hends.2,
      if_neg (by decide), if_neg (by decide), ih fun k hk => h k (List.mem_cons_of_mem l hk),
      List.length_cons]
    congr 1
    omega

end Extent

namespace SourceModule

/-- The text of a method is shorter than the lines from which the scan reads it. -/
theorem length_body_lt_of_mem {d : Method} {skip number : Nat} {ls : List Text}
    (h : d ∈ methodsFrom skip number ls) : d.body.length < (furtherLines ls).length := by
  induction ls generalizing skip number with
  | nil => cases skip <;> simp [methodsFrom] at h
  | cons line rest ih =>
    have hlength : (furtherLines (line :: rest)).length =
        line.length + 1 + (furtherLines rest).length := by
      rw [furtherLines, List.flatMap_cons, List.length_append]
      rfl
    have hlater : ∀ {skip number : Nat}, d ∈ methodsFrom skip number rest →
        d.body.length < (furtherLines (line :: rest)).length := by
      intro skip number hmem
      have hrest := ih hmem
      omega
    cases skip with
    | succ skip => exact hlater h
    | zero =>
      rw [methodsFrom] at h
      split at h
      · exact hlater h
      · next head extent _ =>
        rcases List.mem_append.mp h with hhere | hmem
        · split at hhere
          · cases hhere
          · obtain rfl := List.mem_singleton.mp hhere
            have hbody : (readMethod head extent number (line :: rest)).body =
                line ++ furtherLines (rest.take extent.last) :=
              joinWith_feed_cons line (rest.take extent.last)
            have htake := congrArg List.length
              (furtherLines_append (rest.take extent.last) (rest.drop extent.last))
            rw [List.take_append_drop, List.length_append] at htake
            rw [hbody, List.length_append]
            omega
        · exact hlater hmem

end SourceModule

/-! ## The layout -/

/-- A method whose parameters stand on lines of their own. -/
structure SpreadMethod where
  indent : Text
  isAsync : Bool
  name : Text
  parameterLines : List Text
  returnType : Text
  body : List Text

namespace SpreadMethod

/-- The line with the name. -/
def opening (m : SpreadMethod) : Text :=
  m.indent ++ (onlyIf m.isAsync "async " ++ (m.name ++ ['(']))

/-- The line with the return type. -/
def ascription (m : SpreadMethod) : Text :=
  m.indent ++ ')' :: ((": " : Text) ++ (m.returnType ++ " \x7b"))

/-- The lines from the one with the return type on. -/
def block (m : SpreadMethod) : List Text := m.ascription :: (m.body ++ [m.indent ++ "\x7d"])

/-- The lines after the one with the name. -/
def rest (m : SpreadMethod) : List Text := m.parameterLines ++ m.block

/-- The lines of the method. -/
def lines (m : SpreadMethod) : List Text := m.opening :: m.rest

/-- The method can be told from a statement by its name, each line of its parameters closes what it
opens, and so does the return type; the lines of the body keep a brace open. -/
@[mk_iff]
structure WellFormed (m : SpreadMethod) : Prop where
  indent : isBlankText m.indent = true
  name : IsIdentifier m.name
  not_reserved : ∀ word ∈ MethodHead.reserved, m.name ≠ word
  not_constructor : m.name ≠ "constructor"
  parentheses : ∀ line ∈ m.parameterLines, IsBalanced '(' ')' line
  parameters : ∀ line ∈ m.parameterLines, Extent.braceBalance line = 0
  returnType_trim : trim m.returnType = m.returnType
  returnType : Extent.braceBalance m.returnType = 0
  body : ∀ k < m.body.length, 0 < 1 + Extent.braceBalance (m.body.take (k + 1)).flatten

instance (m : SpreadMethod) : Decidable m.WellFormed := decidable_of_iff' _ (wellFormed_iff m)

variable {m : SpreadMethod}

/-- The opening line is what stands before the parameters and a parenthesis. -/
theorem opening_eq (m : SpreadMethod) :
    m.opening = (m.indent ++ (onlyIf m.isAsync "async " ++ m.name)) ++ ['('] := by
  simp [opening]

/-- The head of the method is read from its opening line. -/
theorem ofLine?_opening (h : m.WellFormed) :
    MethodHead.ofLine? m.opening = some ⟨m.name, m.isAsync⟩ := by
  have hend : endsWith ";" (trimEnd m.opening) = false := by
    rw [opening_eq]
    exact endsWith_trimEnd_concat (by decide) ';' _
  have hstorage : contains (memberAccess persistenceHandle) m.opening = false := by
    rw [opening_eq, contains_append_cons (by decide),
      MethodHead.contains_front h.indent m.isAsync h.name]
    rfl
  rw [MethodHead.ofLine?_declared m.opening rfl (List.all_eq_true.mp h.indent) h.name h.not_reserved
    hend, hstorage, if_neg (by decide)]

/-- The search passes over the opening line. -/
theorem opening_passed (h : m.WellFormed) :
    Extent.braceBalance m.opening = 0 ∧ Extent.endsSearch m.opening = false := by
  rw [opening_eq]
  constructor
  · rw [Extent.braceBalance_append, MethodHead.braceBalance_front h.indent m.isAsync h.name]
    rfl
  · have hend := endsWith_trimEnd_concat (c := '(') (by decide)
    exact Bool.or_eq_false_iff.mpr ⟨hend '\x7d' _, hend ';' _⟩

/-- The search passes over the opening line and the parameters that do not end it. -/
theorem front_passed (h : m.WellFormed) {front back : List Text}
    (hsplit : m.parameterLines = front ++ back)
    (hfront : ∀ l ∈ front, Extent.endsSearch l = false) :
    ∀ l ∈ m.opening :: front, Extent.braceBalance l = 0 ∧ Extent.endsSearch l = false := by
  intro l hl
  rcases List.mem_cons.mp hl with rfl | hl
  · exact opening_passed h
  · have hmem : l ∈ m.parameterLines := by
      rw [hsplit]
      exact List.mem_append_left back hl
    exact ⟨h.parameters l hmem, hfront l hl⟩

/-- The indentation holds blanks only. -/
theorem not_mem_indent (h : m.WellFormed) {c : Char} (hc : isBlank c = false) : c ∉ m.indent := by
  intro hmem
  have hblank := List.all_eq_true.mp h.indent c hmem
  rw [hc] at hblank
  cases hblank

/-- The signature is read from what stands behind the opening parenthesis. -/
theorem readSignature_opening (h : m.WellFormed) (ls : List Text) :
    SourceModule.readSignature m.name (joinWith "\n" (m.opening :: ls)) =
      ((parenthesized (furtherLines ls)).map fun list =>
        (Parameters.parse list.1, SourceModule.returnType list.2)).getD ([], []) := by
  have hsplit : joinWith "\n" (m.opening :: ls) =
      m.indent ++ (onlyIf m.isAsync "async " ++ (m.name ++ '(' :: furtherLines ls)) := by
    rw [joinWith_feed_cons]
    simp [opening]
  rw [hsplit, SourceModule.readSignature_declared (List.all_eq_true.mp h.indent) m.isAsync h.name]

/-! ## Methods that are read whole -/

/-- If no line of the parameters ends the search, then the body starts behind them and ends with the
method. -/
theorem find?_lines_of_passed (h : m.WellFormed)
    (hlines : ∀ line ∈ m.parameterLines, Extent.endsSearch line = false) :
    Extent.find? 0 m.lines = some ⟨m.parameterLines.length + 1, m.rest.length⟩ := by
  have hopens : Extent.braceBalance m.ascription = 1 := by
    have hindent : Extent.braceBalance m.indent = 0 :=
      Extent.braceBalance_eq_zero (not_mem_indent h (by decide)) (not_mem_indent h (by decide))
    simp [ascription, hindent, h.returnType]
  have hclose : ∀ balance closing, Extent.linesToClose balance [closing] = 1 := by
    intro balance closing
    simp [Extent.linesToClose]
  have hsplit : m.lines = (m.opening :: m.parameterLines) ++ m.block := rfl
  have hpassed := front_passed h (List.append_nil m.parameterLines).symm hlines
  have hlast : 0 + (m.opening :: m.parameterLines).length + (m.body.length + 1) =
      m.rest.length := by
    simp only [rest, block, List.length_cons, List.length_append, List.length_nil]
    omega
  rw [hsplit, Extent.find?_append hpassed, block, Extent.find?]
  simp only [hopens, Int.zero_lt_one, if_true]
  rw [Extent.linesToClose_append h.body, hclose, hlast, Nat.zero_add, List.length_cons]

/-- The return type of the whole signature is the one of the method. -/
theorem readSignature_whole (h : m.WellFormed) :
    (SourceModule.readSignature m.name
      (joinWith "\n" (m.opening :: (m.parameterLines ++ [m.ascription])))).2 = m.returnType := by
  have hindent : IsBalanced '(' ')' m.indent :=
    isBalanced_of_not_mem (not_mem_indent h (by decide)) (not_mem_indent h (by decide))
  have hlines : ∀ line ∈ m.parameterLines ++ [m.indent], IsBalanced '(' ')' line :=
    List.forall_mem_append.mpr ⟨h.parentheses, List.forall_mem_singleton.mpr hindent⟩
  have hsplit : furtherLines (m.parameterLines ++ [m.ascription]) =
      furtherLines (m.parameterLines ++ [m.indent]) ++
        ')' :: ((": " : Text) ++ (m.returnType ++ " \x7b")) := by
    simp [furtherLines, ascription]
  rw [readSignature_opening h, hsplit, parenthesized_append (isBalanced_furtherLines hlines),
    Option.map_some, Option.getD_some]
  exact SourceModule.returnType_annotated h.returnType_trim

/-- If no line of the parameters ends the search, then the method is read with all its lines. -/
theorem methods_of_passed (h : m.WellFormed) {source : Text}
    (hsource : Text.lines source = m.lines)
    (hlines : ∀ line ∈ m.parameterLines, Extent.endsSearch line = false) (path : Text) :
    (SourceModule.read source path).methods =
      [SourceModule.readMethod ⟨m.name, m.isAsync⟩
        ⟨m.parameterLines.length + 1, m.rest.length⟩ 1 m.lines] := by
  have hfound : SourceModule.methodAt? m.lines = some (⟨m.name, m.isAsync⟩,
      ⟨m.parameterLines.length + 1, m.rest.length⟩) :=
    SourceModule.methodAt?_eq_some_iff.mpr ⟨ofLine?_opening h, find?_lines_of_passed h hlines⟩
  exact SourceModule.methods_of_methodAt? hsource hfound h.not_constructor (Nat.le_refl _) path

/-! ## Methods that are cut -/

section Cut

variable {front back : List Text} {line : Text}

/-- What follows the opening line is divided at a line of the parameters. -/
theorem rest_eq_of_split (hsplit : m.parameterLines = front ++ line :: back) :
    m.rest = (front ++ [line]) ++ (back ++ m.block) := by
  simp [rest, hsplit]

/-- The first line of the parameters that ends the search is the whole of the body or leaves
none. -/
theorem find?_lines_of_stopped (h : m.WellFormed)
    (hsplit : m.parameterLines = front ++ line :: back)
    (hfront : ∀ l ∈ front, Extent.endsSearch l = false)
    (hline : Extent.endsSearch line = true) :
    Extent.find? 0 m.lines =
      if endsWith "\x7d" (trimEnd line) then some ⟨front.length + 1, front.length + 1⟩
      else none := by
  have hbalance : Extent.braceBalance line = 0 := h.parameters line (by simp [hsplit])
  have hlines : m.lines = (m.opening :: front) ++ line :: (back ++ m.block) := by
    simp [lines, rest, hsplit]
  rw [hlines, Extent.find?_append (front_passed h hsplit hfront),
    Extent.find?_cons_of_balanced hbalance, Nat.zero_add, List.length_cons]
  cases hbrace : endsWith "\x7d" (trimEnd line) with
  | true => rfl
  | false =>
    have hsemicolon : endsWith ";" (trimEnd line) = true := by
      rw [Extent.endsSearch, hbrace, Bool.false_or] at hline
      exact hline
    rw [hsemicolon]
    rfl

/-- A line of the parameters that ends with a closing brace ends the method. -/
theorem methods_of_brace (h : m.WellFormed) {source : Text}
    (hsource : Text.lines source = m.lines) (hsplit : m.parameterLines = front ++ line :: back)
    (hfront : ∀ l ∈ front, Extent.endsSearch l = false)
    (hline : endsWith "\x7d" (trimEnd line) = true) (path : Text) :
    ∃ d later, (SourceModule.read source path).methods = d :: later ∧ d.name = m.name ∧
      d.parameters = [] ∧ d.returnType = [] ∧
      d.body = joinWith "\n" (m.opening :: (front ++ [line])) := by
  have hstop : Extent.endsSearch line = true := by
    rw [Extent.endsSearch, hline, Bool.true_or]
  have hextent := find?_lines_of_stopped h hsplit hfront hstop
  rw [hline, if_pos rfl] at hextent
  have hfound : SourceModule.methodAt? m.lines =
      some (⟨m.name, m.isAsync⟩, ⟨front.length + 1, front.length + 1⟩) :=
    SourceModule.methodAt?_eq_some_iff.mpr ⟨ofLine?_opening h, hextent⟩
  have htake : m.lines.take (front.length + 1 + 1) = m.opening :: (front ++ [line]) := by
    rw [lines, rest_eq_of_split hsplit, ← List.cons_append]
    exact List.take_left' (by simp)
  have hnone : parenthesized (furtherLines (front ++ [line])) = none := by
    apply parenthesized_eq_none
    apply isBalanced_furtherLines
    intro l hl
    apply h.parentheses
    rw [hsplit, ← List.singleton_append, ← List.append_assoc]
    exact List.mem_append_left back hl
  have hsignature : SourceModule.readSignature m.name
      (joinWith "\n" (m.lines.take (front.length + 1 + 1))) = ([], []) := by
    rw [htake, readSignature_opening h, hnone]
    rfl
  have hmethods := SourceModule.methodsFrom_of_methodAt? hfound h.not_constructor 1
  change _ = SourceModule.readMethod _ _ 1 m.lines :: _ at hmethods
  refine ⟨_, _, (congrArg (SourceModule.methodsFrom 0 1) hsource).trans hmethods, rfl, ?_, ?_, ?_⟩
  · exact congrArg Prod.fst hsignature
  · exact congrArg Prod.snd hsignature
  · exact congrArg (joinWith "\n") htake

/-- A method that is not read whole has less text than its lines. -/
theorem body_ne_of_stopped (h : m.WellFormed) {source : Text}
    (hsource : Text.lines source = m.lines) (hsplit : m.parameterLines = front ++ line :: back)
    (hfront : ∀ l ∈ front, Extent.endsSearch l = false)
    (hline : Extent.endsSearch line = true) (path : Text) {d : Method}
    (hd : (SourceModule.read source path).methods = [d]) : d.body ≠ joinWith "\n" m.lines := by
  intro hbody
  rw [lines, joinWith_feed_cons] at hbody
  cases hbrace : endsWith "\x7d" (trimEnd line) with
  | true =>
    obtain ⟨cut, later, hmethods, -, -, -, hcut⟩ :=
      methods_of_brace h hsource hsplit hfront hbrace path
    obtain ⟨rfl, -⟩ := List.cons.inj (hd.symm.trans hmethods)
    rw [hcut, joinWith_feed_cons, rest_eq_of_split hsplit, furtherLines_append (front ++ [line]),
      List.append_cancel_left_eq, List.self_eq_append_right] at hbody
    simp [furtherLines, block] at hbody
  | false =>
    -- No method begins on the first line, so what is found is read from the lines behind it.
    have hextent := find?_lines_of_stopped h hsplit hfront hline
    rw [hbrace, if_neg (by decide)] at hextent
    have hnone : SourceModule.methodAt? (m.opening :: m.rest) = none := by
      have hlines : Extent.find? 0 (m.opening :: m.rest) = none := hextent
      simp [SourceModule.methodAt?, hlines]
    have hmem : d ∈ SourceModule.methodsFrom 0 2 m.rest := by
      have hread : SourceModule.methodsFrom 0 1 (Text.lines source) = [d] := hd
      rw [hsource, lines, SourceModule.methodsFrom, hnone] at hread
      change SourceModule.methodsFrom 0 2 m.rest = [d] at hread
      rw [hread]
      exact List.mem_singleton_self d
    have hshort := SourceModule.length_body_lt_of_mem hmem
    rw [hbody, List.length_append] at hshort
    omega

end Cut

/-- A method with its parameters on lines of their own is the only one read from its lines, with its
return type and with all the lines as its text, just if no line of the parameters ends, blanks
aside, with a closing brace or a semicolon. With a closing brace, the first of these lines is the
last one that is read: the method has neither parameters nor a return type then. -/
theorem spread_method_whole_iff (m : SpreadMethod) (source path : Text) (h : m.WellFormed)
    (hsource : Text.lines source = m.lines) :
    ((∃ d, (SourceModule.read source path).methods = [d] ∧ d.name = m.name ∧
        d.isAsync = m.isAsync ∧ d.returnType = m.returnType ∧ d.body = joinWith "\n" m.lines) ↔
      ∀ line ∈ m.parameterLines, Extent.endsSearch line = false) ∧
    ∀ front line back, m.parameterLines = front ++ line :: back →
      (∀ l ∈ front, Extent.endsSearch l = false) → endsWith "\x7d" (trimEnd line) = true →
      ∃ d later, (SourceModule.read source path).methods = d :: later ∧ d.name = m.name ∧
        d.parameters = [] ∧ d.returnType = [] ∧
        d.body = joinWith "\n" (m.opening :: (front ++ [line])) := by
  refine ⟨⟨?_, ?_⟩, fun front line back hsplit hfront hline =>
    methods_of_brace h hsource hsplit hfront hline path⟩
  · rintro ⟨d, hd, -, -, -, hbody⟩
    by_contra hnot
    have hfirst : (m.parameterLines.find? Extent.endsSearch).isSome = true := by
      rw [List.find?_isSome]
      simpa using hnot
    obtain ⟨line, hfind⟩ := Option.isSome_iff_exists.mp hfirst
    obtain ⟨hline, front, back, hsplit, hfront⟩ := List.find?_eq_some_iff_append.mp hfind
    exact body_ne_of_stopped h hsource hsplit (fun l hl => by simpa using hfront l hl) hline path hd
      hbody
  · intro hlines
    refine ⟨_, methods_of_passed h hsource hlines path, rfl, rfl, ?_, ?_⟩
    · have htake : m.lines.take (m.parameterLines.length + 1 + 1) =
          m.opening :: (m.parameterLines ++ [m.ascription]) := by
        have hsplit : m.lines = m.opening :: (m.parameterLines ++ [m.ascription]) ++
            (m.body ++ [m.indent ++ "\x7d"]) := by
          simp [lines, rest, block]
        rw [hsplit]
        exact List.take_left' (by simp)
      have hwhole := readSignature_whole h
      rw [← htake] at hwhole
      exact hwhole
    · have hall : m.lines.take (m.rest.length + 1) = m.lines :=
        List.take_of_length_le (by rw [lines, List.length_cons])
      exact congrArg (joinWith "\n") hall

/-- An action with an object pattern and a function among its parameters. -/
def createAction : SpreadMethod :=
  { indent := "  ", isAsync := true, name := "create"
    parameterLines := ["    \x7b name, owner \x7d: \x7b name: string; owner: ID \x7d,",
      "    check: (a: \x7b id: ID \x7d) => boolean"]
    returnType := "Promise<\x7b team: ID \x7d | \x7b error: string \x7d>"
    body := ["    if (check(\x7b id: owner \x7d)) \x7b", "      return \x7b team: owner \x7d;",
      "    \x7d", "    return \x7b error: name \x7d;"] }

/-- An action with its parameters on lines of their own is read with its return type and all its
lines. -/
theorem create_action_read_whole :
    createAction.WellFormed ∧
    Text.lines (joinWith "\n" createAction.lines) = createAction.lines ∧
    ∃ d, (SourceModule.read (joinWith "\n" createAction.lines) "Team.ts").methods = [d] ∧
      d.name = "create" ∧ d.isAsync = true ∧
      d.returnType = "Promise<\x7b team: ID \x7d | \x7b error: string \x7d>" ∧
      d.body = joinWith "\n" createAction.lines := by
  have h : createAction.WellFormed := by decide +kernel
  have hlines : Text.lines (joinWith "\n" createAction.lines) = createAction.lines := by
    decide +kernel
  exact ⟨h, hlines, (spread_method_whole_iff createAction _ "Team.ts" h hlines).1.mpr
    (by decide +kernel)⟩

/-- An action whose only parameter has an object type and no comma behind it. -/
def renameAction : SpreadMethod :=
  { indent := [], isAsync := false, name := "rename"
    parameterLines := ["  \x7b name \x7d: \x7b name: string \x7d"], returnType := "Empty"
    body := ["  return \x7b\x7d;"] }

/-- An action with a line of parameters that ends with a brace is cut there and loses its return
type. -/
theorem rename_action_cut :
    renameAction.WellFormed ∧
    (∀ line ∈ renameAction.parameterLines, endsWith ";" (trimEnd line) = false) ∧
    joinWith "\n" renameAction.lines =
      "rename(\n  \x7b name \x7d: \x7b name: string \x7d\n): Empty \x7b\n  return \x7b\x7d;\n\x7d" ∧
    Text.lines (joinWith "\n" renameAction.lines) = renameAction.lines ∧
    (SourceModule.read (joinWith "\n" renameAction.lines) "Team.ts").methods.map
      (fun d => (d.returnType, d.body)) =
        [(([] : Text), ("rename(\n  \x7b name \x7d: \x7b name: string \x7d" : Text))] := by
  decide +kernel

end SpreadMethod

end Concordance
