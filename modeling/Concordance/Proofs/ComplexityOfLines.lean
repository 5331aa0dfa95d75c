import Concordance.Proofs.Layout
import Concordance.Proofs.Occurrences
import Concordance.Source.Complexity

set_option autoImplicit false

/-!
# Complexity over lines

What is counted for the complexity of a text is counted line by line: no keyword, no operator and no
`await` goes across a line end. Only a call through `this` can, since blanks may stand before its
parenthesis. Such a call takes nothing from the calls on either side, so that it adds one to them
(`complexity_adds_over_lines`).
-/

namespace Concordance.Complexity

open Text Lexeme

/-! ## Calls through `this` -/

/-- The characters that the names after `this.` go on with. -/
def inPath (c : Char) : Bool := inIdentifier c || c = '.'

/-- The part of a call before its parenthesis: `this.`, names with dots between them, and blanks. -/
def IsCallHead (head : Text) : Prop :=
  ∃ (c : Char) (path gap : Text), head = "this." ++ (c :: (path ++ gap)) ∧
    startsIdentifier c = true ∧ (∀ d ∈ path, inPath d = true) ∧ ∀ d ∈ gap, isBlank d = true

/-- Behind blanks a text opens a parenthesis. -/
def OpensParenthesis (t : Text) : Prop :=
  ∃ gap rest, t = gap ++ '(' :: rest ∧ ∀ d ∈ gap, isBlank d = true

/-- Whether the last character of a text belongs to a word; of an empty one, that before it. -/
def inWordAfter (inWord : Bool) (before : Text) : Bool :=
  (before.getLast?.map isWordChar).getD inWord

/-- A text ends in the part of a call before its parenthesis, and that part does not begin inside a
word. -/
def EndsInCall (inWord : Bool) (t : Text) : Prop :=
  ∃ before head, t = before ++ head ∧ IsCallHead head ∧ inWordAfter inWord before = false

/-- A call through `this` begins in one text, and its parenthesis follows in the next one. -/
def SplitsCall (a b : Text) : Prop := EndsInCall false a ∧ OpensParenthesis b

variable {a b head rest t : Text} {c : Char} {inWord : Bool}

/-- The head of a call ends before its parenthesis. -/
theorem IsCallHead.not_mem (h : IsCallHead head) : '(' ∉ head := by
  obtain ⟨c, path, gap, rfl, hc, hpath, hgap⟩ := h
  intro hmem
  simp only [List.mem_append, List.mem_cons] at hmem
  rcases hmem with hthis | rfl | hmem | hmem
  · revert hthis
    decide
  · cases hc
  · cases hpath _ hmem
  · cases hgap _ hmem

/-- A gap before a parenthesis is passed over, whichever of its blanks are dropped first. -/
theorem trimStart_dropWhile_append {p : Char → Bool} {gap : Text} (hp : p '(' = false)
    (hgap : ∀ d ∈ gap, isBlank d = true) (rest : Text) :
    trimStart ((gap ++ '(' :: rest).dropWhile p) = '(' :: rest := by
  induction gap with
  | nil =>
    rw [List.nil_append, List.dropWhile_cons_of_neg (by simp [hp])]
    rfl
  | cons d gap ih =>
    by_cases hd : p d = true
    · rw [List.cons_append, List.dropWhile_cons_of_pos hd]
      exact ih fun e he => hgap e (List.mem_cons_of_mem d he)
    · rw [List.cons_append, List.dropWhile_cons_of_neg hd, ← List.cons_append]
      unfold trimStart trimStartOf
      rw [List.dropWhile_append_of_pos hgap]
      rfl

/-- A call of the object itself is read just if a call head and a parenthesis stand in front. -/
theorem selfCall?_eq_some_iff :
    selfCall? t = some rest ↔ ∃ head, IsCallHead head ∧ t = head ++ '(' :: rest := by
  constructor
  · intro h
    obtain ⟨u, hu, h⟩ := Option.bind_eq_some_iff.mp h
    rw [after?_eq_some_iff] at hu
    cases u with
    | nil => cases h
    | cons c u =>
      simp only at h
      split at h
      · next hc =>
        have hpath : u.takeWhile inPath ++ u.dropWhile inPath = u :=
          List.takeWhile_append_dropWhile
        have hgap : (u.dropWhile inPath).takeWhile isBlank ++ trimStart (u.dropWhile inPath) =
            u.dropWhile inPath := List.takeWhile_append_dropWhile
        have hopen : trimStart (u.dropWhile inPath) = '(' :: rest := after?_eq_some_iff.mp h
        refine ⟨_, ⟨c, u.takeWhile inPath, (u.dropWhile inPath).takeWhile isBlank, rfl, hc,
          fun d hd => List.mem_takeWhile_imp hd, fun d hd => List.mem_takeWhile_imp hd⟩, ?_⟩
        rw [hopen] at hgap
        rw [hu, List.append_assoc, List.cons_append, List.append_assoc, hgap, hpath]
      · cases h
  · rintro ⟨head, ⟨c, path, gap, rfl, hc, hpath, hgap⟩, rfl⟩
    have hthis : after? "this." ("this." ++ (c :: (path ++ gap)) ++ '(' :: rest) =
        some (c :: (path ++ (gap ++ '(' :: rest))) := by
      rw [after?_eq_some_iff]
      simp
    have hopen : trimStart ((path ++ (gap ++ '(' :: rest)).dropWhile inPath) = '(' :: rest := by
      rw [List.dropWhile_append_of_pos hpath]
      exact trimStart_dropWhile_append rfl hgap rest
    unfold selfCall?
    rw [hthis, Option.bind_eq_bind, Option.bind_some]
    simp only [hc, if_true]
    exact after?_eq_some_iff.mpr hopen

/-- A part of a call that goes on behind a line end goes on with blanks. -/
theorem isCallHead_append_feed {gap : Text} :
    IsCallHead (a ++ '\n' :: gap) ↔ IsCallHead a ∧ ∀ d ∈ gap, isBlank d = true := by
  constructor
  · rintro ⟨c, path, blanks, hhead, hc, hpath, hblanks⟩
    have hfeed : '\n' ∉ ("this." : Text) ++ c :: path := by
      intro hmem
      rcases List.mem_append.mp hmem with hthis | hmem
      · revert hthis
        decide
      · rcases List.mem_cons.mp hmem with rfl | hmem
        · cases hc
        · cases hpath _ hmem
    rw [show ("this." : Text) ++ (c :: (path ++ blanks)) = ("this." ++ c :: path) ++ blanks by simp]
      at hhead
    rcases List.append_eq_append_iff.mp hhead with ⟨more, hfront, hmore⟩ | ⟨more, rfl, hmore⟩
    · cases more with
      | nil =>
        obtain rfl : '\n' :: gap = blanks := hmore
        rw [List.append_nil] at hfront
        refine ⟨⟨c, path, [], ?_, hc, hpath, by simp⟩, fun d hd => hblanks d (by simp [hd])⟩
        rw [← hfront]
        simp
      | cons d more =>
        obtain ⟨rfl, -⟩ := List.cons.inj hmore
        exact absurd (hfront ▸ by simp) hfeed
    · subst hmore
      refine ⟨⟨c, path, more, by simp, hc, hpath, fun d hd => hblanks d (by simp [hd])⟩,
        fun d hd => hblanks d (by simp [hd])⟩
  · rintro ⟨⟨c, path, blanks, rfl, hc, hpath, hblanks⟩, hgap⟩
    refine ⟨c, path, blanks ++ '\n' :: gap, by simp, hc, hpath, ?_⟩
    intro d hd
    rcases List.mem_append.mp hd with hd | hd
    · exact hblanks d hd
    · rcases List.mem_cons.mp hd with rfl | hd
      · rfl
      · exact hgap d hd

/-- A call that a line does not hold is there with the next line only if it is split between
them. -/
theorem selfCall?_append_feed_eq_none (hnone : selfCall? a = none)
    (hsplit : ¬ (IsCallHead a ∧ OpensParenthesis b)) : selfCall? (a ++ '\n' :: b) = none := by
  rw [Option.eq_none_iff_forall_ne_some]
  intro rest hfound
  obtain ⟨head, hhead, hwhole⟩ := selfCall?_eq_some_iff.mp hfound
  rcases List.append_eq_append_iff.mp hwhole with ⟨more, rfl, hmore⟩ | ⟨more, rfl, hmore⟩
  · cases more with
    | nil => cases hmore
    | cons d gap =>
      obtain ⟨rfl, rfl⟩ := List.cons.inj hmore
      obtain ⟨ha, hgap⟩ := isCallHead_append_feed.mp hhead
      exact hsplit ⟨ha, gap, rest, rfl, hgap⟩
  · cases more with
    | nil => cases hmore
    | cons d more =>
      obtain ⟨rfl, -⟩ := List.cons.inj hmore
      have hearlier : selfCall? (head ++ '(' :: more) = some more :=
        selfCall?_eq_some_iff.mpr ⟨head, hhead, rfl⟩
      cases hnone.symm.trans hearlier

/-! ## Counting calls -/

/-- Where no call begins, the count goes on behind the character. -/
theorem countSelfCallsFrom_cons_of_none (h : inWord = true ∨ selfCall? (c :: t) = none) :
    countSelfCallsFrom inWord 0 (c :: t) = countSelfCallsFrom (isWordChar c) 0 t := by
  rw [countSelfCallsFrom]
  rcases h with rfl | h
  · rfl
  · rw [h, ite_self]

/-- The count goes on behind the parenthesis of a call, outside of any word. -/
theorem countSelfCallsFrom_skip (inWord : Bool) (front rest : Text) :
    countSelfCallsFrom inWord (front.length + 1) (front ++ '(' :: rest) =
      countSelfCallsFrom false 0 rest := by
  induction front generalizing inWord with
  | nil => rfl
  | cons c front ih => exact ih (isWordChar c)

/-- Counting goes on behind a call that was found. -/
theorem countSelfCallsFrom_call (h : IsCallHead head) (rest : Text) :
    countSelfCallsFrom false 0 (head ++ '(' :: rest) = countSelfCallsFrom false 0 rest + 1 := by
  have hfound : selfCall? (head ++ '(' :: rest) = some rest :=
    selfCall?_eq_some_iff.mpr ⟨head, h, rfl⟩
  cases head with
  | nil =>
    obtain ⟨c, path, gap, hnil, -⟩ := h
    cases hnil
  | cons c head =>
    rw [List.cons_append] at hfound ⊢
    rw [countSelfCallsFrom, if_neg (by simp), hfound]
    have hlength : (head ++ '(' :: rest).length - rest.length = head.length + 1 := by
      rw [List.length_append, List.length_cons]
      omega
    simp only [hlength, countSelfCallsFrom_skip]

/-- Without a parenthesis there is no call. -/
theorem countSelfCallsFrom_eq_zero (h : '(' ∉ t) : countSelfCallsFrom inWord 0 t = 0 := by
  induction t generalizing inWord with
  | nil => rfl
  | cons c t ih =>
    have hnone : selfCall? (c :: t) = none := by
      rw [Option.eq_none_iff_forall_ne_some]
      intro rest hfound
      obtain ⟨head, -, hsplit⟩ := selfCall?_eq_some_iff.mp hfound
      exact h (hsplit ▸ by simp)
    rw [countSelfCallsFrom_cons_of_none (Or.inr hnone)]
    exact ih fun hmem => h (List.mem_cons_of_mem c hmem)

/-- No call begins with blanks or with a parenthesis. -/
theorem countSelfCallsFrom_gap {gap : Text} (hgap : ∀ d ∈ gap, isBlank d = true) (inWord : Bool)
    (rest : Text) :
    countSelfCallsFrom inWord 0 (gap ++ '(' :: rest) = countSelfCallsFrom false 0 rest := by
  induction gap generalizing inWord with
  | nil => exact countSelfCallsFrom_cons_of_none (Or.inr rfl)
  | cons d gap ih =>
    obtain ⟨hd, hgap⟩ := List.forall_mem_cons.mp hgap
    have hnone : selfCall? (d :: (gap ++ '(' :: rest)) = none := by
      rw [Option.eq_none_iff_forall_ne_some]
      intro left hfound
      obtain ⟨head, ⟨c, path, blanks, rfl, -⟩, hsplit⟩ := selfCall?_eq_some_iff.mp hfound
      obtain ⟨rfl, -⟩ := List.cons.inj hsplit
      cases hd
    rw [List.cons_append, countSelfCallsFrom_cons_of_none (Or.inr hnone)]
    exact ih hgap (isWordChar d)

/-! ## Calls at the end of a line -/

/-- Whether a text ends inside a word is seen behind its first character. -/
@[simp] theorem inWordAfter_cons (inWord : Bool) (c : Char) (before : Text) :
    inWordAfter inWord (c :: before) = inWordAfter (isWordChar c) before := by
  unfold inWordAfter
  rw [List.getLast?_cons]
  cases before.getLast? with
  | none => rfl
  | some d => rfl

/-- A text ends in a call head if it is one or if the text behind its first character ends in
one. -/
@[simp, grind =] theorem endsInCall_cons : EndsInCall inWord (c :: t) ↔
    (inWord = false ∧ IsCallHead (c :: t)) ∨ EndsInCall (isWordChar c) t := by
  constructor
  · rintro ⟨before, head, hsplit, hhead, hword⟩
    cases before with
    | nil =>
      obtain rfl : c :: t = head := hsplit
      exact Or.inl ⟨hword, hhead⟩
    | cons d before =>
      obtain ⟨rfl, rfl⟩ := List.cons.inj hsplit
      exact Or.inr ⟨before, head, rfl, hhead, by simpa using hword⟩
  · rintro (⟨rfl, hhead⟩ | ⟨before, head, rfl, hhead, hword⟩)
    · exact ⟨[], c :: t, rfl, hhead, rfl⟩
    · exact ⟨c :: before, head, rfl, hhead, by simpa using hword⟩

/-- The empty text does not end in a call head. -/
@[simp] theorem not_endsInCall_nil (inWord : Bool) : ¬ EndsInCall inWord [] := by
  rintro ⟨before, head, hnil, ⟨c, path, gap, rfl, -⟩, -⟩
  cases before with
  | nil => cases hnil
  | cons d before => cases hnil

/-- What is before a parenthesis is no part of a call at the end. -/
theorem endsInCall_append_parenthesis (inWord : Bool) (front rest : Text) :
    EndsInCall inWord (front ++ '(' :: rest) ↔ EndsInCall false rest := by
  induction front generalizing inWord with
  | nil =>
    have hhead : ¬ IsCallHead ('(' :: rest) := fun h => h.not_mem (by simp)
    have hparen : isWordChar '(' = false := rfl
    simp [hhead, hparen]
  | cons c front ih =>
    have hhead : ¬ IsCallHead (c :: (front ++ '(' :: rest)) := fun h => h.not_mem (by simp)
    simp [hhead, ih]

/-! ## Calls in two lines -/

/-- The calls in two lines are those in each of them, and one more if it is split between them. -/
def CallsAdd (inWord : Bool) (a b : Text) : Prop :=
  ¬ (EndsInCall inWord a ∧ OpensParenthesis b) ∧
      countSelfCallsFrom inWord 0 (a ++ '\n' :: b) =
        countSelfCallsFrom inWord 0 a + countSelfCallsFrom false 0 b ∨
    (EndsInCall inWord a ∧ OpensParenthesis b) ∧
      countSelfCallsFrom inWord 0 (a ++ '\n' :: b) =
        countSelfCallsFrom inWord 0 a + countSelfCallsFrom false 0 b + 1

/-- The empty line adds no call to the next one. -/
theorem callsAdd_nil (inWord : Bool) (b : Text) : CallsAdd inWord [] b := by
  have hfeed : countSelfCallsFrom inWord 0 ('\n' :: b) = countSelfCallsFrom false 0 b :=
    countSelfCallsFrom_cons_of_none (Or.inr rfl)
  exact Or.inl ⟨by simp, by simp [hfeed, countSelfCallsFrom]⟩

/-- No call begins at a character, neither in its line nor with the next one. -/
theorem CallsAdd.cons (h : CallsAdd (isWordChar c) t b)
    (hline : inWord = true ∨ selfCall? (c :: t) = none)
    (hsplit : inWord = true ∨ ¬ (IsCallHead (c :: t) ∧ OpensParenthesis b)) :
    CallsAdd inWord (c :: t) b := by
  have hboth : inWord = true ∨ selfCall? (c :: (t ++ '\n' :: b)) = none := by
    rcases hline with hword | hnone
    · exact Or.inl hword
    · exact hsplit.imp_right (selfCall?_append_feed_eq_none hnone)
  have hsame : EndsInCall inWord (c :: t) ∧ OpensParenthesis b ↔
      EndsInCall (isWordChar c) t ∧ OpensParenthesis b := by
    rw [endsInCall_cons]
    constructor
    · rintro ⟨⟨hno, hhead⟩ | hend, hopens⟩
      · rcases hsplit with hword | hsplit
        · cases hno.symm.trans hword
        · exact absurd ⟨hhead, hopens⟩ hsplit
      · exact ⟨hend, hopens⟩
    · exact fun h => ⟨Or.inr h.1, h.2⟩
  unfold CallsAdd
  rw [hsame, List.cons_append, countSelfCallsFrom_cons_of_none hboth,
    countSelfCallsFrom_cons_of_none hline]
  exact h

/-- A call stands in the first line. -/
theorem CallsAdd.call (h : CallsAdd false rest b) (hhead : IsCallHead head) :
    CallsAdd false (head ++ '(' :: rest) b := by
  unfold CallsAdd
  rw [endsInCall_append_parenthesis, List.append_assoc, List.cons_append,
    countSelfCallsFrom_call hhead, countSelfCallsFrom_call hhead]
  rcases h with ⟨hno, hcount⟩ | ⟨hyes, hcount⟩
  · exact Or.inl ⟨hno, by omega⟩
  · exact Or.inr ⟨hyes, by omega⟩

/-- A call goes across the line end: the first line has no other, and the second one keeps its
own. -/
theorem callsAdd_split (ha : IsCallHead a) (hb : OpensParenthesis b) :
    CallsAdd false a b := by
  refine Or.inr ⟨⟨⟨[], a, rfl, ha, rfl⟩, hb⟩, ?_⟩
  obtain ⟨gap, rest, rfl, hgap⟩ := hb
  have hcall : IsCallHead (a ++ '\n' :: gap) := isCallHead_append_feed.mpr ⟨ha, hgap⟩
  calc countSelfCallsFrom false 0 (a ++ '\n' :: (gap ++ '(' :: rest))
      = countSelfCallsFrom false 0 (a ++ '\n' :: gap ++ '(' :: rest) := by simp
    _ = countSelfCallsFrom false 0 rest + 1 := countSelfCallsFrom_call hcall rest
    _ = countSelfCallsFrom false 0 a + countSelfCallsFrom false 0 (gap ++ '(' :: rest) + 1 := by
        rw [countSelfCallsFrom_eq_zero ha.not_mem, countSelfCallsFrom_gap hgap, Nat.zero_add]

/-- The calls of two lines add up, but for a call that is split between them. -/
theorem callsAdd (inWord : Bool) (a b : Text) : CallsAdd inWord a b := by
  -- The search goes on behind a call that it finds, so the induction is on the length of the line.
  induction hlength : a.length using Nat.strong_induction_on generalizing a inWord with
  | _ n ih =>
    cases a with
    | nil => exact callsAdd_nil inWord b
    | cons c t =>
      rw [List.length_cons] at hlength
      have hnext : CallsAdd (isWordChar c) t b := ih t.length (by omega) (isWordChar c) t rfl
      cases inWord with
      | true => exact hnext.cons (Or.inl rfl) (Or.inl rfl)
      | false =>
        cases hfound : selfCall? (c :: t) with
        | none =>
          by_cases hsplit : IsCallHead (c :: t) ∧ OpensParenthesis b
          · exact callsAdd_split hsplit.1 hsplit.2
          · exact hnext.cons (Or.inr hfound) (Or.inr hsplit)
        | some rest =>
          obtain ⟨head, hhead, hcall⟩ := selfCall?_eq_some_iff.mp hfound
          have hshorter : rest.length < n := by
            have hlonger := congrArg List.length hcall
            simp only [List.length_append, List.length_cons] at hlonger
            omega
          rw [hcall]
          exact (ih rest.length hshorter false rest rfl).call hhead

/-! ## Complexity -/

/-- Branch words add up over lines, since a line end is no character of words. -/
theorem countBranchKeywords_append_feed (a b : Text) :
    countBranchKeywords (a ++ '\n' :: b) = countBranchKeywords a + countBranchKeywords b := by
  unfold countBranchKeywords wordRuns
  rw [List.splitOnP_append_cons a b rfl, List.countP_append]

/-- The branches of two lines are those of each of them, and so are their calls, but for one that is
split between the lines. -/
theorem complexity_adds_over_lines (a b : Text) :
    (ofText (a ++ '\n' :: b)).branchCount + 1 = (ofText a).branchCount + (ofText b).branchCount ∧
    (¬ SplitsCall a b ∧
        (ofText (a ++ '\n' :: b)).externalCallCount =
          (ofText a).externalCallCount + (ofText b).externalCallCount ∨
      SplitsCall a b ∧
        (ofText (a ++ '\n' :: b)).externalCallCount =
          (ofText a).externalCallCount + (ofText b).externalCallCount + 1) := by
  have hawait : count "await " (a ++ '\n' :: b) = count "await " a + count "await " b :=
    count_append_cons (by decide) (by decide) a b
  constructor
  · have hchoice : count " ? " (a ++ '\n' :: b) = count " ? " a + count " ? " b :=
      count_append_cons (by decide) (by decide) a b
    have hand : count "&&" (a ++ '\n' :: b) = count "&&" a + count "&&" b :=
      count_append_cons (by decide) (by decide) a b
    have hor : count "||" (a ++ '\n' :: b) = count "||" a + count "||" b :=
      count_append_cons (by decide) (by decide) a b
    simp only [ofText, countBranchKeywords_append_feed, hchoice, hand, hor]
    omega
  · simp only [ofText, hawait, countSelfCalls]
    rcases callsAdd false a b with ⟨hno, hcount⟩ | ⟨hyes, hcount⟩
    · exact Or.inl ⟨hno, by omega⟩
    · exact Or.inr ⟨hyes, by omega⟩

example : (ofText "return await this.items.this\n  (this.size ())").externalCallCount = 3 := by
  decide

end Concordance.Complexity
