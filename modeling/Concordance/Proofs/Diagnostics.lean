import Concordance.Proofs.Accounting
import Concordance.Proofs.Attribution
import Concordance.Proofs.Findings
import Concordance.Proofs.Layout
import Concordance.Proofs.Lookup
import Concordance.Proofs.Spans
import Concordance.Proofs.UndeclaredActions

set_option autoImplicit false

/-!
# Issues point at lines that are there

An issue of the battery is about a file, or it is at a method and names it; and what it quotes is
the declaration of an operation (`IsAnchored`). That holds for any specification and any module.
Where both were read from texts, the place of a method is the line on which its text begins, and the
line of an operation is the one that declares it. So each number in an issue is that of a line, and
the line is the right one.
-/

namespace Concordance

/-! ## Where methods begin -/

namespace SourceModule

open Text

/-- A method begins on a line: the line reads as its head, and its text is that line and some of
those that follow. -/
structure BeginsOn (L : List Text) (n : Nat) (d : Method) : Prop where
  line : d.line = n
  head : ∃ text, L[n - 1]? = some text ∧
    (MethodHead.ofLine? text).map MethodHead.name = some d.name
  body : ∃ last, n ≤ last ∧ last ≤ L.length ∧ d.body = joinWith "\n" ((L.take last).drop (n - 1))

/-- A method that is read is the one of the span that starts at its first line. -/
theorem exists_span_of_mem_methods {source path : Text} {d : Method}
    (h : d ∈ (read source path).methods) :
    ∃ s : Span, spanAt? (lines source) s.first = some s ∧ d = s.toMethod (lines source) := by
  obtain ⟨_, spans, hsweep, -⟩ := exists_sweep (lines source) 0 (Nat.zero_le _)
  have hmethods : (read source path).methods =
      (spans.filter fun s => !s.isConstructor).map (Span.toMethod (lines source)) :=
    hsweep.methodsFrom_eq
  rw [hmethods] at h
  obtain ⟨s, hs, rfl⟩ := List.mem_map.mp h
  exact ⟨s, (hsweep.spanAt?_eq_of_mem s (List.mem_of_mem_filter hs)).2, rfl⟩

/-- A method that is read begins on its line. -/
theorem beginsOn_of_mem_methods {source path : Text} {d : Method}
    (h : d ∈ (read source path).methods) :
    1 ≤ d.line ∧ d.line ≤ (lines source).length ∧ BeginsOn (lines source) d.line d := by
  obtain ⟨s, hspan, rfl⟩ := exists_span_of_mem_methods h
  obtain ⟨-, hopening, hlast, hlt⟩ := bounds_of_spanAt? hspan
  obtain ⟨e, hfound, -⟩ := spanAt?_eq_some_iff.mp hspan
  have hhead := (methodAt?_eq_some_iff.mp hfound).1
  have hin : s.first < (lines source).length := by omega
  have hread := isReadFrom_toMethod (L := lines source) (Nat.le_trans hopening hlast)
  rw [hread.line]
  refine ⟨by omega, by omega, rfl, ?_, s.last + 1, by omega, by omega, ?_⟩
  · refine ⟨(lines source)[s.first], List.getElem?_eq_getElem hin, ?_⟩
    rw [List.head?_drop, List.getElem?_eq_getElem hin, Option.getD_some] at hhead
    rw [hhead, hread.name]
    rfl
  · rw [hread.body]
    rfl

end SourceModule

/-! ## Where operations are declared -/

namespace Specification

open Text Outline

/-- A reference gives the number of a line and the trimmed text of that line. -/
def Quotes (L : List Text) (r : Reference) : Prop :=
  ∃ k text, r.line = some k ∧ 1 ≤ k ∧ k ≤ L.length ∧ L[k - 1]? = some text ∧
    r.excerpt = some (trim text)

/-- An operation that is read is declared on some line. -/
theorem exists_isDeclaredAt_of_mem_read {document path : Text} {op : Operation}
    (h : op ∈ (read document path).actions ++ (read document path).queries) :
    ∃ i, IsDeclaredAt (lines document) i op := by
  rw [actions_read, queries_read, operations_ofText document (Or.inl rfl),
    operations_ofText document (Or.inr rfl)] at h
  rcases List.mem_append.mp h with h | h
  · exact exists_isDeclaredAt h
  · exact exists_isDeclaredAt h

/-- The reference to an operation that is read quotes its document. -/
theorem quotes_referenceTo {document path : Text} {op : Operation} {r : Reference}
    (h : op ∈ (read document path).actions ++ (read document path).queries)
    (hr : Battery.referenceTo (read document path) op = some r) :
    r.file = path ∧ Quotes (lines document) r := by
  obtain ⟨i, hi⟩ := exists_isDeclaredAt_of_mem_read h
  have hin := hi.inDocument
  have htext : textAt (lines document) i = trim (lines document)[i] := by
    unfold textAt
    rw [List.getD_eq_getElem _ _ hin]
  obtain rfl := Option.some.inj hr
  refine ⟨path_read document path, i + 1, (lines document)[i], ?_, by omega, by omega,
    List.getElem?_eq_getElem hin, ?_⟩
  · rw [← hi.line]
  · rw [← htext, ← hi.signature]

end Specification

/-! ## What the battery points at -/

namespace Battery

variable {s : Specification} {m : SourceModule} {i : Issue} {d : Method}

/-- An issue is about one of the two files, or at a method of the module that its message names; and
it refers to nothing but an operation of the specification. -/
structure IsAnchored (s : Specification) (m : SourceModule) (i : Issue) : Prop where
  file : i.location.file = s.path ∨ i.location.file = m.path
  line : ∀ n, i.location.line = some n → i.location.file = m.path ∧
    ∃ d ∈ m.methods, d.line = n ∧ d.name <:+: i.message
  related : ∀ r, i.related = some r → ∃ op ∈ s.actions ++ s.queries, referenceTo s op = some r

/-- An issue refers to nothing or to an operation. -/
def RefersToOperation (s : Specification) (i : Issue) : Prop :=
  i.related = none ∨ ∃ op ∈ s.actions ++ s.queries, i.related = referenceTo s op

/-- An issue that refers to an operation does so by the reference to it. -/
theorem RefersToOperation.exists_eq (h : RefersToOperation s i) (r : Reference)
    (hr : i.related = some r) : ∃ op ∈ s.actions ++ s.queries, referenceTo s op = some r := by
  rcases h with hnone | ⟨op, hop, hrelated⟩
  · rw [hnone] at hr
    cases hr
  · exact ⟨op, hop, hrelated.symm.trans hr⟩

/-- A reference to an action is one to an operation. -/
theorem refersTo_action {a : Operation} (ha : a ∈ s.actions) (h : i.related = referenceTo s a) :
    RefersToOperation s i :=
  Or.inr ⟨a, List.mem_append_left _ ha, h⟩

/-- A reference to a query is one to an operation. -/
theorem refersTo_query {q : Operation} (hq : q ∈ s.queries) (h : i.related = referenceTo s q) :
    RefersToOperation s i :=
  Or.inr ⟨q, List.mem_append_right _ hq, h⟩

/-- An issue without a line is anchored at the file of the specification or at that of the
module. -/
theorem isAnchored_of_file (hfile : i.location.file = s.path ∨ i.location.file = m.path)
    (hline : i.location.line = none) (hrelated : RefersToOperation s i) : IsAnchored s m i where
  file := hfile
  line n hn := by
    rw [hline] at hn
    cases hn
  related := hrelated.exists_eq

/-- An issue at the place of a method that it names is anchored there. -/
theorem isAnchored_of_method (hd : d ∈ m.methods) (hplace : i.location = placeOf m d)
    (hname : d.name <:+: i.message) (hrelated : RefersToOperation s i) : IsAnchored s m i where
  file := by
    rw [hplace]
    exact Or.inr rfl
  line n hn := by
    rw [hplace] at hn ⊢
    exact ⟨rfl, d, hd, Option.some.inj hn, hname⟩
  related := hrelated.exists_eq

/-- A defect is placed at the first method of its name. -/
theorem isAnchored_methodIssue {category : Category} {x : ConventionDefect} {name : Text}
    (hname : name <:+: x.message) : IsAnchored s m (methodIssue m category x name) := by
  rcases placeNamed_cases m name with ⟨e, he, rfl, hplace⟩ | hplace
  · exact isAnchored_of_method he hplace hname (Or.inl rfl)
  · have hlocation : (methodIssue m category x name).location = { file := m.path } := hplace
    refine isAnchored_of_file (Or.inr ?_) ?_ (Or.inl rfl)
    · rw [hlocation]
    · rw [hlocation]

/-- The issue about a reader without its mark is anchored at that reader. -/
theorem isAnchored_namingError (hd : d ∈ m.methods) : IsAnchored s m (namingError m d) := by
  refine isAnchored_of_method hd rfl ?_ (Or.inl rfl)
  exact ⟨"Query method '", "' should start with '" ++ ([queryMark] ++ "'"), by simp [namingError]⟩

/-- Every issue of the battery is anchored, whatever the specification and the module are. -/
theorem isAnchored_of_finds (h : Finds s m i) : IsAnchored s m i := by
  cases h with
  | specificationDefect hx => exact isAnchored_of_file (Or.inl rfl) rfl (Or.inl rfl)
  | dependency hpath => exact isAnchored_of_file (Or.inr rfl) rfl (Or.inl rfl)
  | @failureUnhandled d hd hshape hdeclared hfailure =>
    apply isAnchored_methodIssue
    exact ⟨"Action '", "' neither returns an error result nor handles failure", rfl⟩
  | @syncPersistence d hd hshape hdeclared hasync htouch =>
    apply isAnchored_methodIssue
    exact ⟨"Action '", "' accesses the database but is not async", rfl⟩
  | missingAction ha hnone => exact isAnchored_of_file (Or.inr rfl) rfl (refersTo_action ha rfl)
  | @noErrorOutcome a d ha hd herror =>
    have himplements := find?_actions_eq_some_iff.mp hd
    refine isAnchored_of_method himplements.mem rfl ?_ (refersTo_action ha rfl)
    rw [himplements.holds.2]
    exact ⟨"Action '", "' has no error outcome", rfl⟩
  | @notAsync a d ha hd hasync htouch =>
    have himplements := find?_actions_eq_some_iff.mp hd
    refine isAnchored_of_method himplements.mem rfl ?_ (Or.inl rfl)
    rw [himplements.holds.2]
    exact ⟨"Action '", "' accesses the database but is not async", rfl⟩
  | unspecifiedAction hd hspecified =>
    refine isAnchored_of_method (SourceModule.mem_actions_iff.mp hd).1 rfl ?_ (Or.inl rfl)
    exact ⟨"Unspecified action '", "'", rfl⟩
  | missingQuery hq hnone => exact isAnchored_of_file (Or.inr rfl) rfl (refersTo_query hq rfl)
  | notSequence hq hd hsequence =>
    refine isAnchored_of_method (implementing?_eq_some_iff.mp hd).mem rfl ?_ (refersTo_query hq rfl)
    exact ⟨"Query '", "' must return an array", rfl⟩
  | unmarkedQuery hq hd hmark hshape =>
    exact isAnchored_namingError (implementing?_eq_some_iff.mp hd).mem
  | unmarkedReader hd hshape =>
    exact isAnchored_namingError (SourceModule.mem_actions_iff.mp hd).1
  | noType hnone => exact isAnchored_of_file (Or.inr rfl) rfl (Or.inl rfl)
  | wrongType htype hne => exact isAnchored_of_file (Or.inr rfl) rfl (Or.inl rfl)

/-- An issue of two texts is about one of their two files. If it has a line, that is a line of the
source on which a method begins that the message names. If it has a reference, that is to a line of
the document, and it quotes the line. -/
theorem issues_point_at_real_lines (document specPath source modulePath : Text) (i : Issue)
    (h : i ∈ compare (Specification.read document specPath) (SourceModule.read source modulePath)) :
    (i.location.file = specPath ∨ i.location.file = modulePath) ∧
    (∀ n, i.location.line = some n →
      i.location.file = modulePath ∧ 1 ≤ n ∧ n ≤ (Text.lines source).length ∧
      ∃ d ∈ (SourceModule.read source modulePath).methods,
        SourceModule.BeginsOn (Text.lines source) n d ∧ d.name <:+: i.message) ∧
    (∀ r, i.related = some r →
      r.file = specPath ∧ Specification.Quotes (Text.lines document) r) := by
  have hanchored := isAnchored_of_finds (mem_compare_iff.mp h)
  refine ⟨?_, ?_, ?_⟩
  · have hfile := hanchored.file
    rw [Specification.path_read] at hfile
    exact hfile
  · intro n hn
    obtain ⟨hfile, d, hd, rfl, hname⟩ := hanchored.line n hn
    obtain ⟨hpos, hle, hbegins⟩ := SourceModule.beginsOn_of_mem_methods hd
    exact ⟨hfile, hpos, hle, d, hd, hbegins, hname⟩
  · intro r hr
    obtain ⟨op, hop, hreference⟩ := hanchored.related r hr
    exact Specification.quotes_referenceTo hop hreference

/-- A document that declares an action, with a comment before it. -/
def greetingDocument : Text :=
  Text.unlines ["concept Greeting", "purpose be kind", "actions", "# the only one",
    "  greet (name: String) : (text: String)"]

/-- A source whose method for that action stands behind a constructor and has no error result. -/
def greetingSource : Text :=
  Text.unlines ["export default class GreetingConcept \x7b", "  constructor() \x7b", "  \x7d",
    "  greet(name: string) \x7b", "    return name", "  \x7d", "\x7d"]

/-- The issue about the greeting points at the line of its method and at the line of its
declaration. -/
theorem greeting_issue_points_at_its_lines :
    ∃ i ∈ compare (Specification.read greetingDocument "Greeting.concept")
        (SourceModule.read greetingSource "GreetingConcept.ts"),
      i.location.line = some 4 ∧ i.related.bind Reference.line = some 5 ∧
      (∃ d ∈ (SourceModule.read greetingSource "GreetingConcept.ts").methods,
        SourceModule.BeginsOn (Text.lines greetingSource) 4 d ∧ d.name <:+: i.message) ∧
      ∀ r, i.related = some r → Specification.Quotes (Text.lines greetingDocument) r := by
  have hfound : ((compare (Specification.read greetingDocument "Greeting.concept")
      (SourceModule.read greetingSource "GreetingConcept.ts")).find? fun i =>
        i.location.line = some 4 ∧ i.related.bind Reference.line = some 5).isSome = true := by
    decide +kernel
  obtain ⟨i, hi⟩ := Option.isSome_iff_exists.mp hfound
  have hmem := List.mem_of_find?_eq_some hi
  have hlines := List.find?_some hi
  simp only [decide_eq_true_eq] at hlines
  obtain ⟨-, hplace, hquote⟩ := issues_point_at_real_lines greetingDocument "Greeting.concept"
    greetingSource "GreetingConcept.ts" i hmem
  exact ⟨i, hmem, hlines.1, hlines.2, (hplace 4 hlines.1).2.2.2, fun r hr => (hquote r hr).2⟩

end Battery

end Concordance
