import Concordance.Proofs.Layout
import Concordance.Text.Bracket
import Mathlib.Data.List.Infix

set_option autoImplicit false

/-!
# Nested texts

The readers of bracketed texts all count brackets: one looks for the bracket that closes what is
open, the others for separators where nothing is open. What they find is described here by the count
alone. A text is nested if it closes what it opens and nothing else (`IsNested`), and it is whole
with respect to a separator if every separator in it stands inside of brackets (`IsWhole`). A nested
text is enclosed by the bracket behind it and by no other, and whole texts that are joined by
separators are split into themselves again.
-/

namespace Concordance.Text

/-! ## The bracket that closes -/

section Enclosed

variable {opens closes : Char → Bool} {c : Char} {depth : Nat} {t : Text}

variable (opens closes) in
/-- A text closes `depth` brackets more than it opens, and no beginning of it closes more of
them. -/
def Descends (depth : Nat) (t : Text) : Prop :=
  t.countP closes = t.countP opens + depth ∧
    ∀ front ∈ t.inits, front.countP closes ≤ front.countP opens + depth

/-- The empty text closes no bracket. -/
@[simp, grind =] theorem descends_nil : Descends opens closes depth [] ↔ depth = 0 := by
  simp [Descends, eq_comm]

/-- An opening bracket in front adds one to close. -/
theorem descends_cons_of_opens (hopen : opens c = true) (hclose : closes c = false) :
    Descends opens closes depth (c :: t) ↔ Descends opens closes (depth + 1) t := by
  simp only [Descends, List.countP_cons, List.inits_cons, List.forall_mem_cons, List.forall_mem_map,
    List.countP_nil, hopen, hclose, if_true, Bool.false_eq_true, if_false]
  constructor
  · rintro ⟨hcount, -, hfronts⟩
    refine ⟨by omega, fun front hfront => ?_⟩
    have hle := hfronts front hfront
    omega
  · rintro ⟨hcount, hfronts⟩
    refine ⟨by omega, by omega, fun front hfront => ?_⟩
    have hle := hfronts front hfront
    omega

/-- A closing bracket in front closes one. -/
theorem descends_cons_of_closes (hopen : opens c = false) (hclose : closes c = true) :
    Descends opens closes (depth + 1) (c :: t) ↔ Descends opens closes depth t := by
  simp only [Descends, List.countP_cons, List.inits_cons, List.forall_mem_cons, List.forall_mem_map,
    List.countP_nil, hopen, hclose, if_true, Bool.false_eq_true, if_false]
  constructor
  · rintro ⟨hcount, -, hfronts⟩
    refine ⟨by omega, fun front hfront => ?_⟩
    have hle := hfronts front hfront
    omega
  · rintro ⟨hcount, hfronts⟩
    refine ⟨by omega, by omega, fun front hfront => ?_⟩
    have hle := hfronts front hfront
    omega

/-- Where nothing is open, nothing can be closed. -/
theorem not_descends_cons_of_closes (hopen : opens c = false) (hclose : closes c = true) :
    ¬ Descends opens closes 0 (c :: t) := by
  rintro ⟨-, hfronts⟩
  have hle := hfronts [c] (by simp)
  simp [hopen, hclose] at hle

/-- Any other character in front makes no difference. -/
theorem descends_cons_of_neither (hopen : opens c = false) (hclose : closes c = false) :
    Descends opens closes depth (c :: t) ↔ Descends opens closes depth t := by
  simp [Descends, hopen, hclose]

variable (hdisjoint : ∀ c, opens c = true → closes c = false)
include hdisjoint

/-- No bracket both opens and closes. -/
theorem opens_eq_false_of_closes (h : closes c = true) : opens c = false := by
  cases hopen : opens c with
  | false => rfl
  | true => rw [hdisjoint c hopen] at h; cases h

/-- A text that closes all that is open inside of a bracket is enclosed before the one that closes
it. -/
theorem enclosedFrom_append {inner : Text} (h : Descends opens closes depth inner)
    (hc : closes c = true) (rest : Text) :
    enclosedFrom opens closes depth (inner ++ c :: rest) = some (inner, rest) := by
  induction inner generalizing depth with
  | nil =>
    obtain rfl := descends_nil.mp h
    simp [enclosedFrom, hc, opens_eq_false_of_closes hdisjoint hc]
  | cons d t ih =>
    rw [List.cons_append]
    unfold enclosedFrom
    cases hopen : opens d with
    | true =>
      have ht := (descends_cons_of_opens hopen (hdisjoint d hopen)).mp h
      simp [ih ht]
    | false =>
      cases hclose : closes d with
      | true =>
        cases depth with
        | zero => exact absurd h (not_descends_cons_of_closes hopen hclose)
        | succ depth =>
          have ht := (descends_cons_of_closes hopen hclose).mp h
          simp [ih ht]
      | false =>
        have ht := (descends_cons_of_neither hopen hclose).mp h
        simp [ih ht]

/-- An enclosed text closes what it opens and ends before a closing bracket. -/
theorem of_enclosedFrom {inner rest : Text}
    (h : enclosedFrom opens closes depth t = some (inner, rest)) :
    Descends opens closes depth inner ∧ ∃ c, closes c = true ∧ t = inner ++ c :: rest := by
  induction t generalizing depth inner with
  | nil => simp [enclosedFrom] at h
  | cons d t ih =>
    -- All branches but one go on in the rest of the text, with `d` in front of what they find.
    have hnext : ∀ {deeper : Nat},
        (enclosedFrom opens closes deeper t).map (fun pieces => (d :: pieces.1, pieces.2)) =
            some (inner, rest) →
          ∃ a, inner = d :: a ∧ Descends opens closes deeper a ∧
            ∃ c, closes c = true ∧ d :: t = d :: a ++ c :: rest := by
      intro deeper hmap
      obtain ⟨⟨a, b⟩, hab, heq⟩ := Option.map_eq_some_iff.mp hmap
      obtain ⟨rfl, rfl⟩ := Prod.mk.inj heq
      obtain ⟨ha, c, hc, rfl⟩ := ih hab
      exact ⟨a, rfl, ha, c, hc, rfl⟩
    unfold enclosedFrom at h
    cases hopen : opens d with
    | true =>
      obtain ⟨a, rfl, ha, hsplit⟩ := hnext (by simpa [hopen] using h)
      exact ⟨(descends_cons_of_opens hopen (hdisjoint d hopen)).mpr ha, hsplit⟩
    | false =>
      cases hclose : closes d with
      | true =>
        cases depth with
        | zero =>
          obtain ⟨rfl, rfl⟩ : [] = inner ∧ t = rest := by simpa [hopen, hclose] using h
          exact ⟨descends_nil.mpr rfl, d, hclose, rfl⟩
        | succ depth =>
          obtain ⟨a, rfl, ha, hsplit⟩ := hnext (by simpa [hopen, hclose] using h)
          exact ⟨(descends_cons_of_closes hopen hclose).mpr ha, hsplit⟩
      | false =>
        obtain ⟨a, rfl, ha, hsplit⟩ := hnext (by simpa [hopen, hclose] using h)
        exact ⟨(descends_cons_of_neither hopen hclose).mpr ha, hsplit⟩

end Enclosed

/-! ## Levels -/

/-- The number of brackets that a text opens, less those that it closes. -/
def level (t : Text) : Int := t.countP isOpening - t.countP isClosing

/-- A text closes what it opens, and nothing else: its level is nowhere negative and zero at the
end. -/
def IsNested (t : Text) : Prop := level t = 0 ∧ ∀ front ∈ t.inits, 0 ≤ level front

instance (t : Text) : Decidable (IsNested t) := inferInstanceAs (Decidable (_ ∧ _))

/-- No separator stands outside of the brackets of a text. -/
def IsWhole (sep : Char) (t : Text) : Prop :=
  ∀ front ∈ t.inits, front ++ [sep] <+: t → level front ≠ 0

instance (sep : Char) (t : Text) : Decidable (IsWhole sep t) :=
  inferInstanceAs (Decidable (∀ front ∈ t.inits, _))

/-- A character is no bracket. -/
def isPlainChar (c : Char) : Bool := !(isOpening c || isClosing c)

section Level

variable {sep c : Char} {s t : Text}

/-- An opening bracket is no closing one. -/
theorem isClosing_eq_false_of_isOpening (c : Char) (h : isOpening c = true) :
    isClosing c = false := by
  simp only [isOpening, Bool.or_eq_true, decide_eq_true_eq] at h
  rcases h with ((rfl | rfl) | rfl) | rfl <;> rfl

/-- Levels add up over texts. -/
@[simp, grind =] theorem level_append (s t : Text) : level (s ++ t) = level s + level t := by
  simp only [level, List.countP_append]
  omega

/-- The level of a text is that of its first character and of the rest. -/
theorem level_cons (c : Char) (t : Text) : level (c :: t) = level [c] + level t :=
  level_append [c] t

/-- A text without brackets has level zero. -/
theorem level_eq_zero_of_forall (h : ∀ c ∈ t, isPlainChar c = true) : level t = 0 := by
  have hopen : t.countP isOpening = 0 := by
    rw [List.countP_eq_zero]
    intro c hc
    have := h c hc
    simp_all [isPlainChar]
  have hclose : t.countP isClosing = 0 := by
    rw [List.countP_eq_zero]
    intro c hc
    have := h c hc
    simp_all [isPlainChar]
  simp [level, hopen, hclose]

/-- A nested text is one that descends from zero. -/
theorem isNested_iff_descends : IsNested t ↔ Descends isOpening isClosing 0 t := by
  simp only [IsNested, Descends, level]
  constructor
  · rintro ⟨hlevel, hfronts⟩
    refine ⟨by omega, fun front hfront => ?_⟩
    have := hfronts front hfront
    omega
  · rintro ⟨hlevel, hfronts⟩
    refine ⟨by omega, fun front hfront => ?_⟩
    have := hfronts front hfront
    omega

/-- What a bracket encloses is nested, and it ends before a closing bracket. -/
theorem enclosed_eq_some_iff {inner rest : Text} :
    enclosed t = some (inner, rest) ↔
      IsNested inner ∧ ∃ c, isClosing c = true ∧ t = inner ++ c :: rest := by
  rw [isNested_iff_descends]
  constructor
  · exact of_enclosedFrom isClosing_eq_false_of_isOpening
  · rintro ⟨hinner, c, hc, rfl⟩
    exact enclosedFrom_append isClosing_eq_false_of_isOpening hinner hc rest

/-- A text without brackets is nested. -/
theorem isNested_of_forall (h : ∀ c ∈ t, isPlainChar c = true) : IsNested t := by
  refine ⟨level_eq_zero_of_forall h, fun front hfront => ?_⟩
  have hsub := (List.mem_inits _ _).mp hfront
  exact Int.le_of_eq (level_eq_zero_of_forall fun c hc => h c (hsub.mem hc)).symm

/-- Nested texts are nested together. -/
theorem IsNested.append (hs : IsNested s) (ht : IsNested t) : IsNested (s ++ t) := by
  refine ⟨by simp [hs.1, ht.1], fun front hfront => ?_⟩
  obtain ⟨rest, hsplit⟩ := (List.mem_inits _ _).mp hfront
  rcases List.append_eq_append_iff.mp hsplit with ⟨more, rfl, -⟩ | ⟨more, rfl, rfl⟩
  · exact hs.2 front ((List.mem_inits _ _).mpr (List.prefix_append front more))
  · simpa [hs.1] using ht.2 more ((List.mem_inits _ _).mpr (List.prefix_append more rest))

/-- A text is whole just if every separator stands inside of a bracket. -/
theorem isWhole_iff :
    IsWhole sep t ↔ ∀ front rest, t = front ++ sep :: rest → level front ≠ 0 := by
  constructor
  · rintro h front rest rfl
    apply h front
    · simp
    · simp
  · rintro h front - ⟨rest, rfl⟩
    exact h front rest (by simp)

/-- A whole text behind one that closes what it opens leaves it whole. -/
theorem IsWhole.append (hs : IsWhole sep s) (hlevel : level s = 0) (ht : IsWhole sep t) :
    IsWhole sep (s ++ t) := by
  rw [isWhole_iff] at hs ht ⊢
  intro front rest hsplit
  rcases List.append_eq_append_iff.mp hsplit with ⟨more, rfl, hmore⟩ | ⟨more, rfl, hmore⟩
  · simpa [hlevel] using ht more rest hmore
  · cases more with
    | nil => exact absurd rfl (ht [] rest hmore.symm)
    | cons d more =>
      obtain ⟨rfl, -⟩ := List.cons.inj hmore
      exact hs front more rfl

/-- A text without the separator is whole. -/
theorem isWhole_of_not_mem (h : sep ∉ t) : IsWhole sep t := by
  rw [isWhole_iff]
  rintro front rest rfl
  simp at h

/-! ## Splitting -/

/-- A split has a part. -/
theorem splitTopFrom_ne_nil (sep : Char) (depth : Int) (t : Text) :
    splitTopFrom sep depth t ≠ [] := by
  have hcons : ∀ c parts, consFirst c parts ≠ [] := by
    rintro c (- | ⟨part, parts⟩) <;> simp [consFirst]
  cases t with
  | nil => simp [splitTopFrom]
  | cons c t =>
    unfold splitTopFrom
    split
    · exact hcons _ _
    · split
      · exact hcons _ _
      · split
        · exact List.cons_ne_nil _ _
        · exact hcons _ _

/-- Putting a character in front of the first part changes the head of the list only. -/
theorem consFirst_eq_modifyHead {parts : List Text} (h : parts ≠ []) (c : Char) :
    consFirst c parts = parts.modifyHead (c :: ·) := by
  cases parts with
  | nil => exact absurd rfl h
  | cons part parts => rfl

variable (hsep : isPlainChar sep = true)
include hsep

/-- The splitter either splits at a character or goes on with the level that it leads to. -/
theorem splitTopFrom_cons (depth : Int) (c : Char) (t : Text) :
    splitTopFrom sep depth (c :: t) =
      if c = sep ∧ depth = 0 then [] :: splitTopFrom sep depth t
      else (splitTopFrom sep (depth + level [c]) t).modifyHead (c :: ·) := by
  have hgo : ∀ deeper, consFirst c (splitTopFrom sep deeper t) =
      (splitTopFrom sep deeper t).modifyHead (c :: ·) :=
    fun deeper => consFirst_eq_modifyHead (splitTopFrom_ne_nil sep deeper t) c
  have hplain : isOpening sep = false ∧ isClosing sep = false := by
    simpa [isPlainChar] using hsep
  rw [splitTopFrom]
  cases hopen : isOpening c with
  | true =>
    have hne : c ≠ sep := by
      rintro rfl
      rw [hplain.1] at hopen
      cases hopen
    have hlevel : level [c] = 1 := by
      simp [level, hopen, isClosing_eq_false_of_isOpening c hopen]
    simp [hne, hlevel, hgo]
  | false =>
    cases hclose : isClosing c with
    | true =>
      have hne : c ≠ sep := by
        rintro rfl
        rw [hplain.2] at hclose
        cases hclose
      have hlevel : level [c] = -1 := by simp [level, hopen, hclose]
      simp [hne, hlevel, hgo, Int.sub_eq_add_neg]
    | false =>
      have hlevel : level [c] = 0 := by simp [level, hopen, hclose]
      simp [hlevel, hgo]

/-- A beginning without top-level separators stays in one piece. -/
theorem splitTopFrom_append (depth : Int)
    (h : ∀ front rest, s = front ++ sep :: rest → depth + level front ≠ 0) (t : Text) :
    splitTopFrom sep depth (s ++ t) =
      (splitTopFrom sep (depth + level s) t).modifyHead (s ++ ·) := by
  induction s generalizing depth with
  | nil =>
    have hid : (fun part : Text => [] ++ part) = id := rfl
    rw [hid, List.modifyHead_id, List.nil_append]
    exact congrArg (splitTopFrom sep · t) (Int.add_zero depth).symm
  | cons c s ih =>
    have hhere : ¬ (c = sep ∧ depth = 0) := by
      rintro ⟨rfl, rfl⟩
      exact h [] s rfl rfl
    have hrest : ∀ front rest, s = front ++ sep :: rest → depth + level [c] + level front ≠ 0 := by
      rintro front rest rfl
      have := h (c :: front) rest rfl
      rwa [level_cons, ← Int.add_assoc] at this
    rw [List.cons_append, splitTopFrom_cons hsep, if_neg hhere, ih _ hrest, level_cons c s,
      ← Int.add_assoc, List.modifyHead_modifyHead]
    rfl

/-- At a separator outside of brackets a whole text is split off. -/
theorem splitTop_append (hs : IsWhole sep s) (hlevel : level s = 0) (t : Text) :
    splitTop sep (s ++ sep :: t) = s :: splitTop sep t := by
  have hfronts : ∀ front rest, s = front ++ sep :: rest → 0 + level front ≠ 0 := by
    intro front rest hsplit
    rw [Int.zero_add]
    exact isWhole_iff.mp hs front rest hsplit
  unfold splitTop
  rw [splitTopFrom_append hsep 0 hfronts, hlevel, splitTopFrom_cons hsep, if_pos ⟨rfl, rfl⟩,
    List.modifyHead_cons, List.append_nil]
  rfl

/-- A whole text is its own only part. -/
theorem splitTop_eq_singleton (hs : IsWhole sep s) : splitTop sep s = [s] := by
  have hfronts : ∀ front rest, s = front ++ sep :: rest → 0 + level front ≠ 0 := by
    intro front rest hsplit
    rw [Int.zero_add]
    exact isWhole_iff.mp hs front rest hsplit
  have happend := splitTopFrom_append hsep 0 hfronts []
  rw [List.append_nil] at happend
  unfold splitTop
  rw [happend, splitTopFrom, List.modifyHead_cons, List.append_nil]

omit hsep in
/-- A text is whole, or it has a first separator outside of brackets. -/
theorem isWhole_or_exists_first (sep : Char) (t : Text) :
    IsWhole sep t ∨
      ∃ first more, t = first ++ sep :: more ∧ IsWhole sep first ∧ level first = 0 := by
  by_cases hwhole : IsWhole sep t
  · exact Or.inl hwhole
  · right
    simp only [isWhole_iff, not_forall, not_not] at hwhole
    obtain ⟨front, rest, hsplit, hlevel⟩ := hwhole
    -- A front that is not whole has a shorter one of its kind in it.
    induction hlength : front.length using Nat.strong_induction_on generalizing front rest with
    | _ n ih =>
      by_cases hfront : IsWhole sep front
      · exact ⟨front, rest, hsplit, hfront, hlevel⟩
      · simp only [isWhole_iff, not_forall, not_not] at hfront
        obtain ⟨shorter, middle, rfl, hshorter⟩ := hfront
        refine ih shorter.length ?_ shorter (middle ++ sep :: rest) ?_ hshorter rfl
        · rw [← hlength, List.length_append, List.length_cons]
          omega
        · rw [hsplit, List.append_assoc, List.cons_append]

/-- The first part of a text is whole, and it ends at a separator outside of brackets or with the
text. -/
theorem head?_splitTop_eq_some_iff {first : Text} :
    (splitTop sep t).head? = some first ↔
      IsWhole sep first ∧ (t = first ∨ level first = 0 ∧ ∃ more, t = first ++ sep :: more) := by
  constructor
  · intro hhead
    rcases isWhole_or_exists_first sep t with hwhole | ⟨start, more, rfl, hstart, hlevel⟩
    · rw [splitTop_eq_singleton hsep hwhole] at hhead
      obtain rfl : t = first := by simpa using hhead
      exact ⟨hwhole, Or.inl rfl⟩
    · rw [splitTop_append hsep hstart hlevel] at hhead
      obtain rfl : start = first := by simpa using hhead
      exact ⟨hstart, Or.inr ⟨hlevel, more, rfl⟩⟩
  · rintro ⟨hwhole, rfl | ⟨hlevel, more, rfl⟩⟩
    · rw [splitTop_eq_singleton hsep hwhole]
      rfl
    · rw [splitTop_append hsep hwhole hlevel]
      rfl

end Level

/-! ## Joined texts -/

section Joined

variable {sep : Char} {parts : List Text} {before after lead : Text}

/-- Blanks in front are trimmed off. -/
theorem trim_append_left_of_isBlank {front : Text} (h : ∀ c ∈ front, isBlank c = true) (t : Text) :
    trim (front ++ t) = trim t := by
  induction front with
  | nil => rfl
  | cons c front ih =>
    rw [List.cons_append, trim_cons_of_isBlank (h c List.mem_cons_self)]
    exact ih fun d hd => h d (List.mem_cons_of_mem c hd)

/-- Blanks at the end are trimmed off. -/
theorem trim_append_right_of_isBlank {back : Text} (h : ∀ c ∈ back, isBlank c = true) (t : Text) :
    trim (t ++ back) = trim t := by
  induction back generalizing t with
  | nil => rw [List.append_nil]
  | cons c back ih =>
    rw [List.append_cons, ih (fun d hd => h d (List.mem_cons_of_mem c hd)),
      trim_append_of_isBlank (h c List.mem_cons_self)]

/-- A blank is no bracket. -/
theorem isPlainChar_of_isBlank {c : Char} (h : isBlank c = true) : isPlainChar c = true := by
  cases hplain : isPlainChar c with
  | true => rfl
  | false =>
    simp only [isPlainChar, isOpening, isClosing, Bool.not_eq_false', Bool.or_eq_true,
      decide_eq_true_eq] at hplain
    rcases hplain with (((rfl | rfl) | rfl) | rfl) | (((rfl | rfl) | rfl) | rfl) <;> cases h

/-- Whole texts that are joined by a separator with blanks around it are split into themselves, but
for the blanks. -/
theorem map_trim_splitTop_joinWith (hsep : isPlainChar sep = true) (hblank : isBlank sep = false)
    (hbefore : ∀ c ∈ before, isBlank c = true) (hafter : ∀ c ∈ after, isBlank c = true)
    (hlead : ∀ c ∈ lead, isBlank c = true) (hne : parts ≠ [])
    (hparts : ∀ part ∈ parts, IsWhole sep part ∧ level part = 0) :
    (splitTop sep (lead ++ joinWith (before ++ sep :: after) parts)).map trim = parts.map trim := by
  have hblanks : ∀ {t : Text}, (∀ c ∈ t, isBlank c = true) → IsWhole sep t ∧ level t = 0 := by
    intro t ht
    constructor
    · apply isWhole_of_not_mem
      intro hmem
      rw [ht sep hmem] at hblank
      cases hblank
    · exact level_eq_zero_of_forall fun c hc => isPlainChar_of_isBlank (ht c hc)
  induction parts generalizing lead with
  | nil => exact absurd rfl hne
  | cons part rest ih =>
    obtain ⟨hwhole, hlevel⟩ := hparts part List.mem_cons_self
    have hfirst : IsWhole sep (lead ++ part) := (hblanks hlead).1.append (hblanks hlead).2 hwhole
    have hflat : level (lead ++ part) = 0 := by
      simp [(hblanks hlead).2, hlevel]
    cases rest with
    | nil =>
      have hjoin : joinWith (before ++ sep :: after) [part] = part := by simp [joinWith]
      rw [hjoin, splitTop_eq_singleton hsep hfirst, List.map_singleton, List.map_singleton,
        trim_append_left_of_isBlank hlead]
    | cons next rest =>
      have hjoin : lead ++ joinWith (before ++ sep :: after) (part :: next :: rest) =
          lead ++ part ++ before ++
            sep :: (after ++ joinWith (before ++ sep :: after) (next :: rest)) := by
        simp [joinWith, List.intercalate_cons_cons]
      have hpiece : IsWhole sep (lead ++ part ++ before) :=
        hfirst.append hflat (hblanks hbefore).1
      have hzero : level (lead ++ part ++ before) = 0 := by
        grind
      have hrest := ih hafter (List.cons_ne_nil next rest)
        fun p hp => hparts p (List.mem_cons_of_mem part hp)
      rw [hjoin, splitTop_append hsep hpiece hzero, List.map_cons, hrest, List.map_cons,
        trim_append_right_of_isBlank hbefore, trim_append_left_of_isBlank hlead]
      rfl

/-- Nested parts joined by a text without brackets are nested. -/
theorem isNested_joinWith {between : Text} (hbetween : ∀ c ∈ between, isPlainChar c = true)
    (hparts : ∀ part ∈ parts, IsNested part) : IsNested (joinWith between parts) := by
  induction parts with
  | nil => exact isNested_of_forall (by simp [joinWith])
  | cons part rest ih =>
    have hrest := ih fun p hp => hparts p (List.mem_cons_of_mem part hp)
    have hpart := hparts part List.mem_cons_self
    cases rest with
    | nil => simpa [joinWith] using hpart
    | cons next rest =>
      have hjoin : joinWith between (part :: next :: rest) =
          part ++ between ++ joinWith between (next :: rest) := by
        simp [joinWith, List.intercalate_cons_cons]
      rw [hjoin]
      exact (hpart.append (isNested_of_forall hbetween)).append hrest

end Joined

end Concordance.Text
