import Concordance.Proofs.SpreadSignatures

set_option autoImplicit false

/-!
# The body of a method by the balance of braces

The search for a method's body looks at one line after the other and keeps no balance until a brace
stays open: the lines that it passes over are balanced, so the balance of all lines so far is that
of the line at hand (`find?_eq_some_iff_exists`). From the opening line on the balance is added up,
and the body ends where it is no longer positive, or with the last line (`ClosesAfter`). So the
lines that are found can be told from the balances of the lines since the first one alone, and from
the ends of the lines before the body.
-/

namespace Concordance.Extent

open Text

variable {balance : Int} {line : Text} {lines front rest : List Text} {e : Extent} {n k : Nat}

/-! ## Balances of several lines -/

/-- The opening braces on the first `k` lines, less the closing ones. -/
def balanceAfter (lines : List Text) (k : Nat) : Int := braceBalance (lines.take k).flatten

/-- Before the first line nothing is open. -/
@[simp, grind =] theorem balanceAfter_zero (lines : List Text) : balanceAfter lines 0 = 0 := by
  simp [balanceAfter]

/-- The first line adds its own balance. -/
@[simp, grind =] theorem balanceAfter_cons_succ (line : Text) (lines : List Text) (k : Nat) :
    balanceAfter (line :: lines) (k + 1) = braceBalance line + balanceAfter lines k := by
  simp [balanceAfter]

/-- The balance stays at zero just over lines each of which is balanced. -/
theorem balanceAfter_eq_zero_iff :
    (∀ j < k, balanceAfter lines (j + 1) = 0) ↔ ∀ l ∈ lines.take k, braceBalance l = 0 := by
  induction k generalizing lines with
  | zero => simp
  | succ k ih =>
    cases lines with
    | nil => simp [balanceAfter]
    | cons line lines =>
      rw [List.take_succ_cons, List.forall_mem_cons, ← ih, Nat.forall_lt_succ_left]
      simp only [balanceAfter_cons_succ, balanceAfter_zero, Int.add_zero]
      refine and_congr_right fun hline => ?_
      simp only [hline, Int.zero_add]

/-- Behind balanced lines the balance is that of the further lines. -/
theorem balanceAfter_append (h : ∀ l ∈ front, braceBalance l = 0) (rest : List Text) (i : Nat) :
    balanceAfter (front ++ rest) (front.length + i) = balanceAfter rest i := by
  induction front with
  | nil => simp
  | cons l front ih =>
    obtain ⟨hl, hfront⟩ := List.forall_mem_cons.mp h
    simp [Nat.add_right_comm, hl, ih hfront]

/-! ## The closing line -/

/-- Open braces stay open over fewer than `k` lines, and `k` lines close them or are all there
are. -/
structure ClosesAfter (balance : Int) (lines : List Text) (k : Nat) : Prop where
  le : k ≤ lines.length
  isOpen : ∀ j < k, 0 < balance + balanceAfter lines j
  ending : balance + balanceAfter lines k ≤ 0 ∨ k = lines.length

/-- The lines that it takes to close open braces are the first ones after which these are closed, or
all lines. -/
theorem closesAfter_linesToClose (h : 0 < balance) (lines : List Text) :
    ClosesAfter balance lines (linesToClose balance lines) := by
  induction lines generalizing balance with
  | nil => exact ⟨Nat.le_refl 0, by simp [linesToClose], Or.inr rfl⟩
  | cons line rest ih =>
    have hfirst : 0 < balance + balanceAfter (line :: rest) 0 := by simpa using h
    rw [linesToClose]
    split
    · next hclosed => exact ⟨by simp, by simpa using h, Or.inl (by simpa using hclosed)⟩
    · next hopen =>
      obtain ⟨hle, hisOpen, hending⟩ := ih (Int.not_le.mp hopen)
      refine ⟨Nat.succ_le_succ hle, ?_, ?_⟩
      · rw [Nat.forall_lt_succ_left]
        refine ⟨hfirst, fun j hj => ?_⟩
        simpa [Int.add_assoc] using hisOpen j hj
      · simpa [Int.add_assoc] using hending

/-- A number of lines that closes braces for the first time is at most any other such number. -/
theorem ClosesAfter.le_of {k' : Nat} (h : ClosesAfter balance lines k)
    (h' : ClosesAfter balance lines k') : k ≤ k' := by
  by_contra hlt
  have hopen := h.isOpen k' (Nat.lt_of_not_le hlt)
  have hle := h.le
  rcases h'.ending with hclosed | hall
  · omega
  · omega

/-- There is only one number of lines after which braces are closed for the first time. -/
theorem ClosesAfter.linesToClose_eq (h : ClosesAfter balance lines k) (hbalance : 0 < balance) :
    linesToClose balance lines = k :=
  Nat.le_antisymm ((closesAfter_linesToClose hbalance lines).le_of h)
    (h.le_of (closesAfter_linesToClose hbalance lines))

/-! ## The opening line -/

/-- The search passes over balanced lines, none of which ends it, and comes to a line that is a
whole method or leaves a brace open. -/
theorem find?_eq_some_iff_exists :
    find? n lines = some e ↔
      ∃ front line rest, lines = front ++ line :: rest ∧
        (∀ l ∈ front, braceBalance l = 0 ∧ endsSearch l = false) ∧ e.opening = n + front.length ∧
        (braceBalance line = 0 ∧ endsWith "\x7d" (trimEnd line) = true ∧ e.last = e.opening ∨
          0 < braceBalance line ∧
            e.last = e.opening + linesToClose (braceBalance line) rest) := by
  constructor
  · intro h
    induction lines generalizing n with
    | nil => simp [find?] at h
    | cons line rest ih =>
      rcases Int.lt_trichotomy (braceBalance line) 0 with hneg | hzero | hpos
      · rw [find?] at h
        simp [hneg, Int.not_lt.mpr (Int.le_of_lt hneg), Int.ne_of_lt hneg] at h
      · rw [find?_cons_of_balanced hzero] at h
        split at h
        · next hbrace =>
          cases h
          exact ⟨[], line, rest, rfl, by simp, rfl, Or.inl ⟨hzero, hbrace, rfl⟩⟩
        · next hbrace =>
          split at h
          · cases h
          · next hsemicolon =>
            obtain ⟨front, line', rest', rfl, hfront, hopening, hlast⟩ := ih h
            have hends : endsSearch line = false := by simp_all [endsSearch]
            refine ⟨line :: front, line', rest', rfl,
              List.forall_mem_cons.mpr ⟨⟨hzero, hends⟩, hfront⟩, ?_, hlast⟩
            rw [hopening, List.length_cons]
            omega
      · rw [find?] at h
        simp only [hpos, if_true, Option.some.injEq] at h
        subst h
        exact ⟨[], line, rest, rfl, by simp, rfl, Or.inr ⟨hpos, rfl⟩⟩
  · obtain ⟨opening, last⟩ := e
    rintro ⟨front, line, rest, rfl, hfront, hopening, hline⟩
    simp only at hopening hline
    rw [find?_append hfront, ← hopening]
    rcases hline with ⟨hzero, hbrace, rfl⟩ | ⟨hpos, rfl⟩
    · rw [find?_cons_of_balanced hzero, if_pos hbrace]
    · rw [find?]
      simp only [hpos, if_true]

/-! ## All lines -/

/-- The opening braces on the lines from one to another, both included, less the closing ones. -/
def balanceOver (lines : List Text) (first last : Nat) : Int :=
  let text := ((lines.take (last + 1)).drop first).flatten
  List.count '\x7b' text - List.count '\x7d' text

/-- The balance over lines from a start is the balance after that many of the remaining lines. -/
theorem balanceOver_eq (lines : List Text) (start i : Nat) :
    balanceOver lines start (start + i) = balanceAfter (lines.drop start) (i + 1) := by
  unfold balanceOver balanceAfter
  rw [braceBalance_eq_count, List.drop_take, Nat.add_assoc, Nat.add_sub_cancel_left]

/-- From its opening line on a body stays open: up to a line after that, on which the balance is no
longer positive, or to the end of the lines. -/
def StaysOpen (lines : List Text) (start opening last : Nat) : Prop :=
  (∀ j, opening ≤ j → j < last → 0 < balanceOver lines start j) ∧
    (opening < last ∧ balanceOver lines start last ≤ 0 ∨
      last + 1 = lines.length ∧ ∀ j, opening ≤ j → j ≤ last → 0 < balanceOver lines start j)

/-- The lines on which a method's body opens and ends, told from the balances of the lines since the
first one. The lines before the body are balanced. A body on one line has a brace and ends in one,
with the balance at zero; any other stays open. -/
structure IsBody (lines : List Text) (start opening last : Nat) : Prop where
  start_le : start ≤ opening
  opening_le : opening ≤ last
  last_lt : last < lines.length
  before : ∀ j, start ≤ j → j < opening → balanceOver lines start j = 0
  body :
    (opening = last ∧ balanceOver lines start last = 0 ∧
      ∃ line, lines[last]? = some line ∧ '\x7b' ∈ line ∧ ['\x7d'] <:+ trimEnd line) ∨
    StaysOpen lines start opening last

section Found

variable {start last : Nat} (hsplit : lines.drop start = front ++ line :: rest)
  (hbalanced : ∀ l ∈ front, braceBalance l = 0)
include hsplit

/-- The lines are those before the start, those before the line, the line, and the rest. -/
theorem length_of_drop_eq : lines.length = start + front.length + rest.length + 1 := by
  have hlength := congrArg List.length hsplit
  simp only [List.length_drop, List.length_append, List.length_cons] at hlength
  omega

/-- The line stands behind the ones before it. -/
theorem getElem?_of_drop_eq : lines[start + front.length]? = some line := by
  rw [← List.getElem?_drop, hsplit]
  simp

include hbalanced

/-- Over the lines before the one that opens a body the balance is zero. -/
theorem balanceOver_before {j : Nat} (hj : start ≤ j) (hlt : j < start + front.length) :
    balanceOver lines start j = 0 := by
  obtain ⟨i, rfl⟩ := Nat.exists_eq_add_of_le hj
  have hzero : ∀ i < front.length, balanceAfter (front ++ line :: rest) (i + 1) = 0 := by
    rwa [balanceAfter_eq_zero_iff, List.take_left]
  rw [balanceOver_eq, hsplit]
  exact hzero i (by omega)

/-- From the line behind balanced ones on, the balance is that of this line and those after it. -/
theorem balanceOver_from (i : Nat) :
    balanceOver lines start (start + front.length + i) =
      braceBalance line + balanceAfter rest i := by
  rw [Nat.add_assoc, balanceOver_eq, hsplit, Nat.add_assoc, balanceAfter_append hbalanced,
    balanceAfter_cons_succ]

/-- A body that is closed after some lines stays open before that. -/
theorem ClosesAfter.staysOpen (h : ClosesAfter (braceBalance line) rest k)
    (hpos : 0 < braceBalance line) :
    StaysOpen lines start (start + front.length) (start + front.length + k) := by
  have hlength := length_of_drop_eq hsplit
  have hfrom := balanceOver_from hsplit hbalanced
  have hopen : ∀ j, start + front.length ≤ j → j < start + front.length + k →
      0 < balanceOver lines start j := by
    intro j hj hlt
    obtain ⟨i, rfl⟩ := Nat.exists_eq_add_of_le hj
    rw [hfrom]
    exact h.isOpen i (by omega)
  refine ⟨hopen, ?_⟩
  by_cases hclosed : braceBalance line + balanceAfter rest k ≤ 0
  · have hk : k ≠ 0 := by
      rintro rfl
      rw [balanceAfter_zero] at hclosed
      omega
    exact Or.inl ⟨by omega, by rwa [hfrom]⟩
  · have hall : k = rest.length := h.ending.resolve_left hclosed
    refine Or.inr ⟨by omega, fun j hj hle => ?_⟩
    rcases Nat.lt_or_eq_of_le hle with hlt | rfl
    · exact hopen j hj hlt
    · rw [hfrom]
      omega

/-- A body that stays open up to a line that is not the last is closed on that line. -/
theorem StaysOpen.closesAfter
    (h : StaysOpen lines start (start + front.length) (start + front.length + k))
    (hlt : start + front.length + k < lines.length) :
    0 < braceBalance line ∧ ClosesAfter (braceBalance line) rest k := by
  have hlength := length_of_drop_eq hsplit
  have hfrom := balanceOver_from hsplit hbalanced
  obtain ⟨hopen, hending⟩ := h
  have hfirst : 0 < balanceOver lines start (start + front.length + 0) := by
    rcases hending with ⟨hk, -⟩ | ⟨-, hall⟩
    · exact hopen _ (by omega) (by omega)
    · exact hall _ (by omega) (by omega)
  rw [hfrom, balanceAfter_zero, Int.add_zero] at hfirst
  refine ⟨hfirst, by omega, fun i hi => ?_, ?_⟩
  · rw [← hfrom]
    exact hopen _ (by omega) (by omega)
  · rcases hending with ⟨-, hclosed⟩ | ⟨hend, -⟩
    · exact Or.inl (by rwa [← hfrom])
    · exact Or.inr (by omega)

/-- Seen from the line that opens it, a body is that line alone or goes on to where its braces are
closed. -/
theorem isBody_iff_of_drop_eq :
    IsBody lines start (start + front.length) last ↔
      braceBalance line = 0 ∧ endsWith "\x7d" (trimEnd line) = true ∧ last = start + front.length ∨
      0 < braceBalance line ∧
        last = start + front.length + linesToClose (braceBalance line) rest := by
  have hlength := length_of_drop_eq hsplit
  have hline := getElem?_of_drop_eq hsplit
  have hfirst := balanceOver_from hsplit hbalanced 0
  rw [Nat.add_zero, balanceAfter_zero, Int.add_zero] at hfirst
  constructor
  · intro h
    rcases h.body with ⟨rfl, hzero, line', hline', -, hbrace⟩ | hopen
    · obtain rfl : line = line' := Option.some.inj (hline.symm.trans hline')
      exact Or.inl ⟨hfirst.symm.trans hzero, endsWith_iff.mpr hbrace, rfl⟩
    · obtain ⟨k, rfl⟩ := Nat.exists_eq_add_of_le h.opening_le
      obtain ⟨hpos, hcloses⟩ := hopen.closesAfter hsplit hbalanced h.last_lt
      exact Or.inr ⟨hpos, by rw [hcloses.linesToClose_eq hpos]⟩
  · rintro (⟨hzero, hbrace, rfl⟩ | ⟨hpos, rfl⟩)
    · have hwhole : isWhole line = true := by rw [isWhole_eq_endsWith hzero, hbrace]
      have hopens : '\x7b' ∈ line := by simpa using (Bool.and_eq_true_iff.mp hwhole).2
      exact ⟨Nat.le_add_right _ _, Nat.le_refl _, by omega,
        fun j hj hlt => balanceOver_before hsplit hbalanced hj hlt,
        Or.inl ⟨rfl, hfirst.trans hzero, line, hline, hopens, endsWith_iff.mp hbrace⟩⟩
    · have hcloses := closesAfter_linesToClose hpos rest
      have hle := hcloses.le
      exact ⟨Nat.le_add_right _ _, Nat.le_add_right _ _, by omega,
        fun j hj hlt => balanceOver_before hsplit hbalanced hj hlt,
        Or.inr (hcloses.staysOpen hsplit hbalanced hpos)⟩

end Found

/-- Balances of zero up to a line mean that each line before it is balanced. -/
theorem IsBody.balanced {start opening last : Nat} (h : IsBody lines start (start + opening) last) :
    ∀ l ∈ (lines.drop start).take opening, braceBalance l = 0 := by
  rw [← balanceAfter_eq_zero_iff]
  intro j hj
  rw [← balanceOver_eq]
  exact h.before (start + j) (Nat.le_add_right start j) (Nat.add_lt_add_left hj start)

/-- The search that begins on a line finds a body just if the balances of the lines from there on
are those of a body, and no line before the body ends the search by a brace or a semicolon. -/
theorem body_found_by_brace_balance (lines : List Text) (start : Nat) (e : Extent) :
    find? 0 (lines.drop start) = some e ↔
      IsBody lines start (start + e.opening) (start + e.last) ∧
        ∀ line ∈ (lines.drop start).take e.opening, endsSearch line = false := by
  rw [find?_eq_some_iff_exists]
  constructor
  · rintro ⟨front, line, rest, hsplit, hfront, hopening, hline⟩
    rw [Nat.zero_add] at hopening
    rw [hopening] at hline ⊢
    refine ⟨(isBody_iff_of_drop_eq hsplit fun l hl => (hfront l hl).1).mpr ?_, ?_⟩
    · rwa [Nat.add_right_inj, Nat.add_assoc, Nat.add_right_inj]
    · rw [hsplit, List.take_left]
      exact fun l hl => (hfront l hl).2
  · rintro ⟨hbody, hends⟩
    have hlt : e.opening < (lines.drop start).length := by
      have := hbody.opening_le
      have := hbody.last_lt
      rw [List.length_drop]
      omega
    have hlength : ((lines.drop start).take e.opening).length = e.opening :=
      List.length_take_of_le (Nat.le_of_lt hlt)
    have hsplit : lines.drop start = (lines.drop start).take e.opening ++
        (lines.drop start)[e.opening] :: (lines.drop start).drop (e.opening + 1) := by
      rw [← List.drop_eq_getElem_cons hlt, List.take_append_drop]
    have hthere : IsBody lines start (start + ((lines.drop start).take e.opening).length)
        (start + e.last) := by rwa [hlength]
    have hline := (isBody_iff_of_drop_eq hsplit hbody.balanced).mp hthere
    rw [hlength, Nat.add_right_inj, Nat.add_assoc, Nat.add_right_inj] at hline
    exact ⟨_, _, _, hsplit, fun l hl => ⟨hbody.balanced l hl, hends l hl⟩,
      by rw [hlength, Nat.zero_add], hline⟩

end Concordance.Extent
