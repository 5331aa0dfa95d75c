import Concordance.Source.Reader
import Mathlib.Data.List.Forall2

set_option autoImplicit false

/-!
# The lines of methods

Methods are found by a scan over the lines of a source: a line that begins a method is taken with
the extent of the method, constructors included, and the scan goes on behind it; any other line is
passed over. `Sweep` is that loop, with the number of its turns and the spans that it takes. Each
turn moves on by a line at least, so the loop ends after at most as many turns as there are lines,
whatever the braces are like; the spans that it takes stand one behind the other; and the methods of
the source are the spans that are no constructor's, read verbatim.
-/

namespace Concordance

namespace Extent

/-- Braces are closed after at most all lines. -/
theorem linesToClose_le (balance : Int) (lines : List Text) :
    linesToClose balance lines ≤ lines.length := by
  induction lines generalizing balance with
  | nil => exact Nat.le_refl _
  | cons line rest ih =>
    simp only [linesToClose, List.length_cons]
    split
    · omega
    · have := ih (balance + braceBalance line)
      omega

/-- An extent begins no earlier than the search, opens before it ends, and ends within the lines. -/
theorem bounds_of_find? {n : Nat} {lines : List Text} {e : Extent}
    (h : find? n lines = some e) :
    n ≤ e.opening ∧ e.opening ≤ e.last ∧ e.last < n + lines.length := by
  induction lines generalizing n with
  | nil => simp [find?] at h
  | cons line rest ih =>
    simp only [find?] at h
    split at h
    · have hclose := linesToClose_le (braceBalance line) rest
      cases h
      simp only [List.length_cons]
      omega
    · split at h
      · cases h
        simp only [List.length_cons]
        omega
      · split at h
        · cases h
        · have := ih h
          simp only [List.length_cons]
          omega

end Extent

namespace SourceModule

open Text

/-- The lines that a method or a constructor takes, counted from zero. -/
structure Span where
  head : MethodHead
  first : Nat
  /-- The line on which the body opens. -/
  opening : Nat
  last : Nat

/-- The span that begins on a line. -/
def spanAt? (L : List Text) (i : Nat) : Option Span :=
  (methodAt? (L.drop i)).map fun found =>
    ⟨found.1, i, i + found.2.opening, i + found.2.last⟩

/-- Whether a span is that of a constructor. -/
def Span.isConstructor (s : Span) : Bool := s.head.name = "constructor"

/-- The method on the lines of a span. -/
def Span.toMethod (L : List Text) (s : Span) : Method :=
  readMethod s.head ⟨s.opening - s.first, s.last - s.first⟩ (s.first + 1) (L.drop s.first)

variable {L : List Text} {i n : Nat} {s : Span} {spans : List Span}

/-! ## One turn of the scan -/

/-- A span at a line is the method that begins there, with its extent counted from the first
line. -/
theorem spanAt?_eq_some_iff :
    spanAt? L i = some s ↔
      ∃ e, methodAt? (L.drop i) = some (s.head, e) ∧ s.first = i ∧ s.opening = i + e.opening ∧
        s.last = i + e.last := by
  unfold spanAt?
  rw [Option.map_eq_some_iff]
  constructor
  · rintro ⟨⟨head, e⟩, hfound, rfl⟩
    exact ⟨e, hfound, rfl, rfl, rfl⟩
  · rintro ⟨e, hfound, hfirst, hopening, hlast⟩
    refine ⟨(s.head, e), hfound, ?_⟩
    cases s
    simp_all

/-- A method at a line is a head and an extent. -/
theorem methodAt?_eq_some_iff {lines : List Text} {head : MethodHead} {e : Extent} :
    methodAt? lines = some (head, e) ↔
      MethodHead.ofLine? (lines.head?.getD []) = some head ∧ Extent.find? 0 lines = some e := by
  simp [methodAt?, Option.bind_eq_some_iff]

/-- A span begins on its line, opens no earlier, ends no earlier than that, and ends within the
source. -/
theorem bounds_of_spanAt? (h : spanAt? L i = some s) :
    s.first = i ∧ s.first ≤ s.opening ∧ s.opening ≤ s.last ∧ s.last < L.length := by
  obtain ⟨e, hfound, hfirst, hopening, hlast⟩ := spanAt?_eq_some_iff.mp h
  have hbounds := Extent.bounds_of_find? (methodAt?_eq_some_iff.mp hfound).2
  simp only [List.length_drop] at hbounds
  omega

/-- No span is of a reserved word. -/
theorem not_reserved_of_spanAt? (h : spanAt? L i = some s) :
    s.head.name ∉ MethodHead.reserved := by
  obtain ⟨e, hfound, -⟩ := spanAt?_eq_some_iff.mp h
  have hhead := (methodAt?_eq_some_iff.mp hfound).1
  unfold MethodHead.ofLine? at hhead
  intro hmem
  have hkept := (Option.filter_eq_some_iff.mp hhead).2
  simp only [Bool.not_eq_true', Bool.or_eq_false_iff, List.any_eq_false, decide_eq_true_eq] at hkept
  exact hkept.1.1 _ hmem rfl

/-- The lines of a method found last are passed over one by one. -/
theorem methodsFrom_skip (skip number : Nat) (lines : List Text) :
    methodsFrom skip number lines = methodsFrom 0 (number + skip) (lines.drop skip) := by
  induction skip generalizing number lines with
  | zero => rfl
  | succ skip ih =>
    cases lines with
    | nil => simp [methodsFrom]
    | cons line rest =>
      rw [methodsFrom, ih, List.drop_succ_cons]
      congr 1
      omega

/-- A method that begins on the first line is taken, and the scan goes on behind it. -/
theorem methodsFrom_of_methodAt? {line : Text} {rest : List Text} {head : MethodHead} {e : Extent}
    (h : methodAt? (line :: rest) = some (head, e)) (hname : head.name ≠ "constructor")
    (number : Nat) :
    methodsFrom 0 number (line :: rest) =
      readMethod head e number (line :: rest) ::
        methodsFrom 0 (number + 1 + e.last) (rest.drop e.last) := by
  rw [methodsFrom, h]
  simp only [hname, if_false]
  rw [methodsFrom_skip, List.singleton_append]

/-- A method that takes all the lines of a source is its only one. -/
theorem methods_of_methodAt? {source : Text} {ls : List Text} {head : MethodHead} {e : Extent}
    (hsource : Text.lines source = ls) (h : methodAt? ls = some (head, e))
    (hname : head.name ≠ "constructor") (hlast : ls.length ≤ e.last + 1) (path : Text) :
    (read source path).methods = [readMethod head e 1 ls] := by
  change methodsFrom 0 1 (Text.lines source) = _
  rw [hsource]
  cases ls with
  | nil => simp [methodAt?, Extent.find?] at h
  | cons line rest =>
    have hrest : rest.length ≤ e.last := by
      rw [List.length_cons] at hlast
      omega
    rw [methodsFrom_of_methodAt? h hname, List.drop_eq_nil_of_le hrest, methodsFrom]

/-- A line on which no method begins is passed over. -/
theorem methodsFrom_of_spanAt?_eq_none (hi : i < L.length) (h : spanAt? L i = none) :
    methodsFrom 0 (i + 1) (L.drop i) = methodsFrom 0 (i + 1 + 1) (L.drop (i + 1)) := by
  have hfound : methodAt? (L.drop i) = none := Option.map_eq_none_iff.mp h
  rw [List.drop_eq_getElem_cons hi] at hfound ⊢
  rw [methodsFrom, hfound]

/-- A method on a line is taken, unless it is a constructor, and the scan goes on behind its last
line. -/
theorem methodsFrom_of_spanAt?_eq_some (hi : i < L.length) (h : spanAt? L i = some s) :
    methodsFrom 0 (i + 1) (L.drop i) =
      (if s.isConstructor then [] else [s.toMethod L]) ++
        methodsFrom 0 (s.last + 1 + 1) (L.drop (s.last + 1)) := by
  obtain ⟨e, hfound, hfirst, hopening, hlast⟩ := spanAt?_eq_some_iff.mp h
  have hmethod : s.toMethod L = readMethod s.head e (i + 1) (L.drop i) := by
    unfold Span.toMethod
    rw [hfirst, hopening, hlast, Nat.add_sub_cancel_left, Nat.add_sub_cancel_left]
  rw [hmethod]
  rw [List.drop_eq_getElem_cons hi] at hfound ⊢
  rw [methodsFrom, hfound]
  simp only [Span.isConstructor, decide_eq_true_eq]
  congr 1
  rw [methodsFrom_skip, List.drop_drop, hlast]
  congr 1
  · omega
  · congr 1
    omega

/-! ## The whole scan -/

/-- The scan from a line to the end of the lines, with the number of its turns and the spans that it
takes. -/
inductive Sweep (L : List Text) : (start turns : Nat) → List Span → Prop where
  | done : Sweep L L.length 0 []
  | pass {i n : Nat} {spans : List Span} (hi : i < L.length) (hnone : spanAt? L i = none)
      (rest : Sweep L (i + 1) n spans) : Sweep L i (n + 1) spans
  | take {i n : Nat} {s : Span} {spans : List Span} (hi : i < L.length)
      (hsome : spanAt? L i = some s) (rest : Sweep L (s.last + 1) n spans) :
      Sweep L i (n + 1) (s :: spans)

/-- From every line the scan comes to the end, in no more turns than lines are left. -/
theorem exists_sweep (L : List Text) (i : Nat) (hi : i ≤ L.length) :
    ∃ n spans, Sweep L i n spans ∧ n ≤ L.length - i := by
  -- Induction on the lines left: a turn takes one of them at least.
  induction hleft : L.length - i using Nat.strongRecOn generalizing i with
  | ind left ih =>
    by_cases hend : i = L.length
    · subst hend
      exact ⟨0, [], .done, Nat.zero_le _⟩
    · have hlt : i < L.length := by omega
      cases hspan : spanAt? L i with
      | none =>
        obtain ⟨n, spans, hrest, hn⟩ := ih (L.length - (i + 1)) (by omega) (i + 1) hlt rfl
        exact ⟨n + 1, spans, .pass hlt hspan hrest, by omega⟩
      | some s =>
        obtain ⟨hfirst, hopening, hclose, hlast⟩ := bounds_of_spanAt? hspan
        obtain ⟨n, spans, hrest, hn⟩ :=
          ih (L.length - (s.last + 1)) (by omega) (s.last + 1) hlast rfl
        exact ⟨n + 1, s :: spans, .take hlt hspan hrest, by omega⟩

namespace Sweep

/-- Each span of a scan lies at or behind its start and is what begins on its first line. -/
theorem spanAt?_eq_of_mem (h : Sweep L i n spans) :
    ∀ s ∈ spans, i ≤ s.first ∧ spanAt? L s.first = some s := by
  induction h with
  | done => simp
  | pass _ _ _ ih =>
    intro s hs
    have := ih s hs
    exact ⟨by omega, this.2⟩
  | take _ hsome _ ih =>
    obtain ⟨hfirst, hopening, hlast, -⟩ := bounds_of_spanAt? hsome
    intro s hs
    rcases List.mem_cons.mp hs with rfl | hs
    · exact ⟨by omega, by rw [hfirst, hsome]⟩
    · have := ih s hs
      exact ⟨by omega, this.2⟩

/-- The spans of a scan follow one another. -/
theorem pairwise_last_lt_first (h : Sweep L i n spans) :
    spans.Pairwise fun a b => a.last < b.first := by
  induction h with
  | done => exact List.Pairwise.nil
  | pass _ _ _ ih => exact ih
  | take _ _ hrest ih =>
    refine List.pairwise_cons.mpr ⟨fun b hb => ?_, ih⟩
    have := (hrest.spanAt?_eq_of_mem b hb).1
    omega

/-- A line that begins a span is in some span that the scan takes. -/
theorem exists_mem_of_spanAt? (h : Sweep L i n spans) {j : Nat} (hij : i ≤ j) (hj : j < L.length)
    (hspan : (spanAt? L j).isSome = true) : ∃ s ∈ spans, s.first ≤ j ∧ j ≤ s.last := by
  induction h with
  | done => omega
  | @pass i n spans _ hnone _ ih =>
    have hne : i ≠ j := by
      rintro rfl
      simp [hnone] at hspan
    exact ih (by omega)
  | @take i n s spans _ hsome _ ih =>
    obtain ⟨hfirst, -⟩ := bounds_of_spanAt? hsome
    by_cases hin : j ≤ s.last
    · exact ⟨s, List.mem_cons_self, by omega, hin⟩
    · obtain ⟨t, ht, hbounds⟩ := ih (by omega)
      exact ⟨t, List.mem_cons_of_mem _ ht, hbounds⟩

/-- The methods from a line on are the spans of the scan, other than constructors. -/
theorem methodsFrom_eq (h : Sweep L i n spans) :
    methodsFrom 0 (i + 1) (L.drop i) =
      (spans.filter fun s => !s.isConstructor).map (Span.toMethod L) := by
  induction h with
  | done => simp [methodsFrom]
  | pass hi hnone _ ih => rw [methodsFrom_of_spanAt?_eq_none hi hnone, ih]
  | @take i n s spans hi hsome _ ih =>
    rw [methodsFrom_of_spanAt?_eq_some hi hsome, ih]
    cases hctor : s.isConstructor with
    | true => simp [hctor]
    | false => simp [hctor]

end Sweep

/-- Of spans that follow one another no two overlap. -/
theorem eq_of_overlap (hpairwise : spans.Pairwise fun a b => a.last < b.first) {a b : Span}
    (ha : a ∈ spans) (hb : b ∈ spans) (hab : b.first ≤ a.last) (hba : a.first ≤ b.last) :
    a = b := by
  induction hpairwise with
  | nil => simp at ha
  | cons hhead _ ih =>
    rcases List.mem_cons.mp ha with rfl | ha'
    · rcases List.mem_cons.mp hb with rfl | hb'
      · rfl
      · have := hhead b hb'
        omega
    · rcases List.mem_cons.mp hb with rfl | hb'
      · have := hhead a ha'
        omega
      · exact ih ha' hb'

/-- What a method has from the span that it is read from. -/
structure IsReadFrom (L : List Text) (s : Span) (d : Method) : Prop where
  name : d.name = s.head.name
  line : d.line = s.first + 1
  body : d.body = joinWith "\n" ((L.take (s.last + 1)).drop s.first)
  isQuery : d.isQuery = true ↔ d.name.head? = some '_'
  complexity : d.complexity = Complexity.ofText d.body

/-- The mark of a query is an underscore in front. -/
theorem isQueryName_iff (name : Text) : isQueryName name = true ↔ name.head? = some '_' := by
  cases name with
  | nil => simp [isQueryName, startsWith, after?]
  | cons c rest =>
    by_cases hc : '_' = c
    · subst hc
      simp [isQueryName, startsWith, after?, queryMark]
    · simp [isQueryName, startsWith, after?, queryMark, hc, Ne.symm hc]

/-- The method of a span is read from its lines. -/
theorem isReadFrom_toMethod (h : s.first ≤ s.last) : IsReadFrom L s (s.toMethod L) where
  name := rfl
  line := rfl
  body := by
    have hlength : s.last + 1 - s.first = s.last - s.first + 1 := by omega
    rw [List.drop_take, hlength]
    rfl
  isQuery := isQueryName_iff _
  complexity := rfl

/-- The scan of a source ends after at most as many turns as there are lines. The spans that it
takes follow one another without overlap, each is what begins on its first line, and every line that
begins one lies in one of them. The methods of the source are, in order, the verbatim lines of the
spans that are no constructor's; none has the name of a constructor or a reserved word; and none
begins inside of another span. -/
theorem methods_are_disjoint_verbatim_spans (source path : Text) :
    ∃ turns spans,
      Sweep (Text.lines source) 0 turns spans ∧ turns ≤ (Text.lines source).length ∧
      (spans.Pairwise fun a b => a.last < b.first) ∧
      (∀ s ∈ spans, s.first ≤ s.last ∧ s.last < (Text.lines source).length ∧
        spanAt? (Text.lines source) s.first = some s) ∧
      (∀ i < (Text.lines source).length, (spanAt? (Text.lines source) i).isSome = true →
        ∃ s ∈ spans, s.first ≤ i ∧ i ≤ s.last) ∧
      List.Forall₂ (IsReadFrom (Text.lines source)) (spans.filter fun s => !s.isConstructor)
        (read source path).methods ∧
      ∀ d ∈ (read source path).methods,
        d.name ≠ "constructor" ∧ d.name ∉ MethodHead.reserved ∧
        ∀ s ∈ spans, s.first < d.line → d.line ≤ s.last + 1 →
          s.isConstructor = false ∧ d.line = s.first + 1 := by
  obtain ⟨turns, spans, hsweep, hturns⟩ := exists_sweep (Text.lines source) 0 (Nat.zero_le _)
  have hmethods : (read source path).methods =
      (spans.filter fun s => !s.isConstructor).map (Span.toMethod (Text.lines source)) :=
    hsweep.methodsFrom_eq
  have hspans : ∀ s ∈ spans, s.first ≤ s.last ∧ s.last < (Text.lines source).length ∧
      spanAt? (Text.lines source) s.first = some s := by
    intro s hs
    have hat := (hsweep.spanAt?_eq_of_mem s hs).2
    obtain ⟨-, hopening, hlast, hlt⟩ := bounds_of_spanAt? hat
    exact ⟨Nat.le_trans hopening hlast, hlt, hat⟩
  refine ⟨turns, spans, hsweep, hturns, hsweep.pairwise_last_lt_first, hspans,
    fun i hi hsome => hsweep.exists_mem_of_spanAt? (Nat.zero_le _) hi hsome, ?_, ?_⟩
  · rw [hmethods, List.forall₂_map_right_iff, List.forall₂_same]
    intro s hs
    exact isReadFrom_toMethod (hspans s (List.mem_of_mem_filter hs)).1
  · rw [hmethods]
    intro d hd
    obtain ⟨own, hown, rfl⟩ := List.mem_map.mp hd
    obtain ⟨hmem, hctor⟩ := List.mem_filter.mp hown
    have hname : own.isConstructor = false := by simpa using hctor
    refine ⟨of_decide_eq_false hname, not_reserved_of_spanAt? (hspans own hmem).2.2, ?_⟩
    intro s hs hfirst hlast
    have hline : (own.toMethod (Text.lines source)).line = own.first + 1 := rfl
    have hown_le := (hspans own hmem).1
    -- The line lies in both spans, so they are one.
    obtain rfl := eq_of_overlap hsweep.pairwise_last_lt_first hs hmem (by omega) (by omega)
    exact ⟨hname, hline⟩

end SourceModule

end Concordance
