import Concordance.Proofs.Declarations
import Concordance.Proofs.Reformatting

set_option autoImplicit false

/-!
# Line endings of sources

A source may end its lines with carriage returns or without. Methods are read from its lines, and
these are the same (`lines_withReturns`). Exported types and fields are read from the whole text, by
recognisers that start at the beginning of a line and may go on over several lines. To them a line
end is a run of blanks in both cases, so each of them finds the same and leaves the same
(`IgnoresReturns`). A search over the beginnings of lines then goes from match to match in step:
where a match ends, and whether a line begins there, does not depend on the carriage returns.
-/

namespace Concordance

/-! ## Texts with carriage returns -/

namespace Text

variable {c : Char} {s t : Text} {p : Char → Bool}

/-- Carriage returns are put in piece by piece. -/
@[simp, grind =] theorem withReturns_append (s t : Text) :
    withReturns (s ++ t) = withReturns s ++ withReturns t := by
  unfold withReturns
  exact List.flatMap_append

/-- A text that is not empty does not become so. -/
theorem withReturns_ne_nil (h : t ≠ []) : withReturns t ≠ [] := by
  cases t with
  | nil => exact absurd rfl h
  | cons c t =>
    by_cases hc : c = '\n'
    · rw [hc, withReturns_feed]
      exact List.cons_ne_nil _ _
    · rw [withReturns_cons hc]
      exact List.cons_ne_nil _ _

/-- The last character stays the same. -/
theorem getLast?_withReturns (t : Text) : (withReturns t).getLast? = t.getLast? := by
  rcases List.eq_nil_or_concat' t with rfl | ⟨init, last, rfl⟩
  · rfl
  · have hlast : (withReturns [last]).getLast? = some last := by
      by_cases hc : last = '\n'
      · rw [hc]
        rfl
      · rw [withReturns_cons hc]
        rfl
    simp [List.getLast?_append, hlast]

/-! ### Lines -/

/-- A character of a row is one of the text. -/
theorem mem_of_mem_rows {row : Text} (hrow : row ∈ rows t) (hc : c ∈ row) : c ∈ t := by
  induction t generalizing row with
  | nil =>
    obtain rfl : row = [] := List.mem_singleton.mp hrow
    cases hc
  | cons d t ih =>
    rw [rows_cons] at hrow
    split at hrow
    · rcases List.mem_cons.mp hrow with rfl | hrow
      · cases hc
      · exact List.mem_cons_of_mem d (ih hrow hc)
    · cases hrows : rows t with
      | nil => exact absurd hrows (rows_ne_nil t)
      | cons first rest =>
        rw [hrows] at hrow ih
        rcases List.mem_cons.mp hrow with rfl | hrow
        · rcases List.mem_cons.mp hc with rfl | hc
          · exact List.mem_cons_self
          · exact List.mem_cons_of_mem d (ih List.mem_cons_self hc)
        · exact List.mem_cons_of_mem d (ih (List.mem_cons_of_mem first hrow) hc)

/-- Rows that are ended by carriage returns are closed like those that are not. -/
theorem closeLines_endRows {R : List Text} (h : ∀ row ∈ R, '\r' ∉ row) :
    closeLines (endRows R) = closeLines R := by
  induction R using closeLines.induct with
  | case1 => rfl
  | case2 last _ => rfl
  | case3 last _ => rfl
  | case4 row next rest ih =>
    have hrest := ih fun r hr => h r (List.mem_cons_of_mem row hr)
    have hchopped : chopReturn (row ++ ['\r']) = row := by
      unfold chopReturn
      rw [before?_append, Option.getD_some]
    have hkept : chopReturn row = row := by
      apply chopReturn_eq_self
      intro hlast
      exact h row List.mem_cons_self (List.mem_of_getLast? hlast)
    have hsplit : closeLines (endRows (row :: next :: rest)) =
        chopReturn (row ++ ['\r']) :: closeLines (endRows (next :: rest)) := by
      cases rest <;> rfl
    rw [hsplit, hrest, hchopped, closeLines, hkept]

/-- The carriage return before a line feed belongs to the line end. -/
theorem lines_withReturns (h : '\r' ∉ t) : lines (withReturns t) = lines t := by
  show closeLines (rows (withReturns t)) = closeLines (rows t)
  rw [rows_withReturns]
  apply closeLines_endRows
  intro row hrow hmem
  exact h (mem_of_mem_rows hrow hmem)

/-! ### Beginnings -/

/-- Dropping characters of a class that does not tell the two line ends apart ignores carriage
returns. -/
theorem dropWhile_withReturns (hp : p '\r' = p '\n') (t : Text) :
    (withReturns t).dropWhile p = withReturns (t.dropWhile p) := by
  induction t with
  | nil => rfl
  | cons c t ih =>
    by_cases hc : c = '\n'
    · rw [hc, withReturns_feed, List.dropWhile_cons, List.dropWhile_cons, List.dropWhile_cons, hp]
      split
      · exact ih
      · rfl
    · rw [withReturns_cons hc, List.dropWhile_cons, List.dropWhile_cons]
      split
      · exact ih
      · rw [withReturns_cons hc]

/-- Taking characters of a class without line ends ignores carriage returns. -/
theorem takeWhile_withReturns (hreturn : p '\r' = false) (hfeed : p '\n' = false) (t : Text) :
    (withReturns t).takeWhile p = t.takeWhile p := by
  induction t with
  | nil => rfl
  | cons c t ih =>
    by_cases hc : c = '\n'
    · rw [hc, withReturns_feed, List.takeWhile_cons_of_neg (by simp [hreturn]),
        List.takeWhile_cons_of_neg (by simp [hfeed])]
    · rw [withReturns_cons hc, List.takeWhile_cons, List.takeWhile_cons, ih]

/-- Trimming the start ignores carriage returns. -/
theorem trimStart_withReturns (t : Text) : trimStart (withReturns t) = withReturns (trimStart t) :=
  dropWhile_withReturns (by decide) t

/-- A text is a word of some declaration: it has no blanks. -/
def isSolid (t : Text) : Bool := t.all fun c => !isBlank c

/-- Reading a solid text ignores carriage returns. -/
theorem after?_withReturns {lead : Text} (hlead : isSolid lead = true) (t : Text) :
    after? lead (withReturns t) = (after? lead t).map withReturns := by
  induction lead generalizing t with
  | nil => rfl
  | cons a lead ih =>
    unfold isSolid at hlead ih
    rw [List.all_cons, Bool.and_eq_true, Bool.not_eq_true'] at hlead
    cases t with
    | nil => rfl
    | cons c t =>
      by_cases hc : c = '\n'
      · have hreturn : a ≠ '\r' := by
          rintro rfl
          exact absurd hlead.1 (by decide)
        have hfeed : a ≠ '\n' := by
          rintro rfl
          exact absurd hlead.1 (by decide)
        rw [hc, withReturns_feed, after?, after?, if_neg hreturn, if_neg hfeed]
        rfl
      · rw [withReturns_cons hc, after?, after?]
        split
        · exact ih hlead.2 t
        · rfl

end Text

/-! ## Recognisers -/

namespace Lexeme

open Text

/-- A recogniser finds the same with carriage returns and without, and leaves the same. -/
def IgnoresReturns {α : Type} (m : Text → Option (α × Text)) : Prop :=
  ∀ t, m (withReturns t) = (m t).map fun found => (found.1, withReturns found.2)

/-- Reading blanks ignores carriage returns. -/
theorem blanks?_withReturns (t : Text) :
    blanks? (withReturns t) = (blanks? t).map withReturns := by
  cases t with
  | nil => rfl
  | cons c t =>
    by_cases hc : c = '\n'
    · have hdrop := dropWhile_withReturns (p := isBlank) (by decide) t
      rw [hc, withReturns_feed]
      show some ((withReturns t).dropWhile isBlank) = some (withReturns (t.dropWhile isBlank))
      rw [hdrop]
    · rw [withReturns_cons hc, blanks?, blanks?]
      split
      · rw [dropWhile_withReturns (by decide), Option.map_some]
      · rfl

section Words

variable {word : Text} {words : List Text}

/-- Reading a word ignores carriage returns. -/
theorem keyword?_withReturns (hword : isSolid word = true) (t : Text) :
    keyword? word (withReturns t) = (keyword? word t).map withReturns := by
  unfold keyword?
  rw [after?_withReturns hword]
  cases after? word t with
  | none => rfl
  | some rest => exact blanks?_withReturns rest

/-- Skipping a word ignores carriage returns. -/
theorem skipKeyword_withReturns (hword : isSolid word = true) (t : Text) :
    skipKeyword word (withReturns t) = withReturns (skipKeyword word t) := by
  unfold skipKeyword
  rw [keyword?_withReturns hword]
  cases keyword? word t <;> rfl

/-- Reading one of several words ignores carriage returns. -/
theorem anyKeyword?_withReturns (hwords : words.all isSolid = true) (t : Text) :
    anyKeyword? words (withReturns t) = (anyKeyword? words t).map withReturns := by
  unfold anyKeyword?
  induction words with
  | nil => rfl
  | cons word words ih =>
    rw [List.all_cons, Bool.and_eq_true] at hwords
    rw [List.findSome?_cons, List.findSome?_cons, keyword?_withReturns hwords.1, ih hwords.2]
    cases keyword? word t <;> rfl

end Words

/-- Reading an identifier ignores carriage returns. -/
theorem ignoresReturns_identifier? : IgnoresReturns identifier? := by
  intro t
  cases t with
  | nil => rfl
  | cons c t =>
    by_cases hc : c = '\n'
    · rw [hc, withReturns_feed]
      rfl
    · rw [withReturns_cons hc, identifier?, identifier?]
      split
      · rw [takeWhile_withReturns (by decide) (by decide), dropWhile_withReturns (by decide)]
        rfl
      · rfl

/-- Modifiers are read one by one before what follows them. -/
theorem afterModifiers_eq {α : Type} (words : List Text) (next : Text → Option α) (t : Text) :
    afterModifiers words next t =
      ((anyKeyword? words t).bind (afterModifiers words next)).or (next t) := by
  rw [afterModifiers]
  split
  · next rest hrest => rw [hrest, Option.bind_some]
  · next hnone => rw [hnone, Option.bind_none, Option.none_or]

/-- Reading modifiers ignores carriage returns if reading what follows them does. -/
theorem IgnoresReturns.afterModifiers {α : Type} {words : List Text}
    {next : Text → Option (α × Text)} (hwords : words.all isSolid = true)
    (hnext : IgnoresReturns next) : IgnoresReturns (afterModifiers words next) := by
  intro t
  induction hlength : t.length using Nat.strong_induction_on generalizing t with
  | _ n ih =>
    rw [afterModifiers_eq, afterModifiers_eq, anyKeyword?_withReturns hwords, hnext]
    cases hrest : anyKeyword? words t with
    | none => rfl
    | some rest =>
      have hlt := length_lt_of_anyKeyword? hrest
      rw [Option.map_some, Option.bind_some, Option.bind_some, ih rest.length (by omega) rest rfl,
        Option.map_or]

/-! ### What is left -/

/-- A recogniser takes something from the beginning of the text and leaves the rest. -/
def Takes {α : Type} (m : Text → Option (α × Text)) : Prop :=
  ∀ t a rest, m t = some (a, rest) → rest <:+ t ∧ rest.length < t.length

/-- What is left behind a text is the end of what it was read from. -/
theorem suffix_of_after? {lead t rest : Text} (h : after? lead t = some rest) : rest <:+ t := by
  rw [after?_eq_some_iff] at h
  exact ⟨lead, h.symm⟩

/-- What is left without blanks is the end of the text. -/
theorem trimStart_suffix (t : Text) : trimStart t <:+ t := List.dropWhile_suffix isBlank

/-- What is left behind a word is the end of what it was read from. -/
theorem suffix_of_keyword? {word t rest : Text} (h : keyword? word t = some rest) : rest <:+ t := by
  obtain ⟨u, hu, hblanks⟩ := Option.bind_eq_some_iff.mp h
  refine List.IsSuffix.trans ?_ (suffix_of_after? hu)
  cases u with
  | nil => cases hblanks
  | cons c u =>
    rw [blanks?] at hblanks
    split at hblanks
    · obtain rfl := Option.some.inj hblanks
      exact (List.dropWhile_suffix isBlank).trans (List.suffix_cons c u)
    · cases hblanks

/-- Reading an identifier takes something. -/
theorem takes_identifier? : Takes identifier? := by
  intro t name rest h
  cases t with
  | nil => cases h
  | cons c t =>
    rw [identifier?] at h
    split at h
    · obtain ⟨-, rfl⟩ := Prod.mk.inj (Option.some.inj h)
      have hsuffix : t.dropWhile inIdentifier <:+ t := List.dropWhile_suffix inIdentifier
      refine ⟨hsuffix.trans (List.suffix_cons c t), ?_⟩
      have hle := hsuffix.length_le
      rw [List.length_cons]
      omega
    · cases h

/-- Reading modifiers takes something if reading what follows them does. -/
theorem Takes.afterModifiers {α : Type} {words : List Text} {next : Text → Option (α × Text)}
    (hnext : Takes next) : Takes (afterModifiers words next) := by
  intro t a rest h
  induction hlength : t.length using Nat.strong_induction_on generalizing t with
  | _ n ih =>
    rw [afterModifiers_eq] at h
    rcases Option.or_eq_some_iff.mp h with hlater | ⟨-, hhere⟩
    · obtain ⟨u, hu, hfound⟩ := Option.bind_eq_some_iff.mp hlater
      obtain ⟨word, -, hword⟩ := List.exists_of_findSome?_eq_some hu
      have hlt := length_lt_of_keyword? hword
      obtain ⟨hsuffix, hless⟩ := ih u.length (by omega) u hfound rfl
      exact ⟨hsuffix.trans (suffix_of_keyword? hword), by omega⟩
    · rw [← hlength]
      exact hnext t a rest hhere

/-! ## Beginnings of lines -/

section LineStarts

variable {α : Type}

/-- A search for the first match at the start of a line ignores carriage returns if the match
does. -/
theorem firstAtLineStart_withReturns {m : Text → Option α} (hm : ∀ t, m (withReturns t) = m t)
    (atStart : Bool) (t : Text) :
    firstAtLineStart m atStart (withReturns t) = firstAtLineStart m atStart t := by
  induction t generalizing atStart with
  | nil => rfl
  | cons c t ih =>
    by_cases hc : c = '\n'
    · -- An empty line is tried at its carriage return, and at its line feed no line begins.
      have hsame := hm (c :: t)
      rw [hc, withReturns_feed] at hsame
      rw [hc, withReturns_feed, firstAtLineStart, firstAtLineStart, firstAtLineStart, hsame, ih]
      rfl
    · have hsame := hm (c :: t)
      rw [withReturns_cons hc] at hsame
      rw [withReturns_cons hc, firstAtLineStart, firstAtLineStart, hsame, ih]

variable {m : Text → Option (α × Text)}

/-- Whether a line begins behind a text that follows the given kind of place. -/
def startsLineAfter (atStart : Bool) (front : Text) : Bool :=
  (front.getLast?.map fun c => decide (c = '\n')).getD atStart

/-- Whether a line begins is seen behind the first character. -/
@[simp] theorem startsLineAfter_cons (atStart : Bool) (c : Char) (front : Text) :
    startsLineAfter atStart (c :: front) = startsLineAfter (c = '\n') front := by
  unfold startsLineAfter
  rw [List.getLast?_cons]
  cases front.getLast? <;> rfl

/-- The search goes on behind what is to be skipped. -/
theorem allAtLineStarts_skip (atStart : Bool) (front rest : Text) :
    allAtLineStarts m atStart front.length (front ++ rest) =
      allAtLineStarts m (startsLineAfter atStart front) 0 rest := by
  induction front generalizing atStart with
  | nil => rfl
  | cons c front ih =>
    simp [allAtLineStarts, ih]

/-- After a match the search goes on behind what the match took. -/
theorem allAtLineStarts_of_match {a : α} {front rest : Text} (hfront : front ≠ [])
    (h : m (front ++ rest) = some (a, rest)) :
    allAtLineStarts m true 0 (front ++ rest) =
      a :: allAtLineStarts m (startsLineAfter true front) 0 rest := by
  cases front with
  | nil => exact absurd rfl hfront
  | cons c front =>
    have hskip : (front ++ rest).length - rest.length = front.length := by
      rw [List.length_append]
      omega
    rw [List.cons_append] at h ⊢
    rw [allAtLineStarts, if_pos rfl, h, startsLineAfter_cons]
    simp only [hskip, allAtLineStarts_skip]

/-- Without a match the search goes on at the next character. -/
theorem allAtLineStarts_of_none {atStart : Bool} {c : Char} {t : Text}
    (h : atStart = true → m (c :: t) = none) :
    allAtLineStarts m atStart 0 (c :: t) = allAtLineStarts m (c = '\n') 0 t := by
  have hnone : (if atStart = true then m (c :: t) else none) = none := by
    split
    · next hstart => exact h hstart
    · rfl
  rw [allAtLineStarts, hnone]

/-- The induction goes from match to match: what one of them leaves is shorter. -/
theorem allAtLineStarts_withReturns (hm : IgnoresReturns m) (htakes : Takes m) (atStart : Bool)
    (t : Text) : allAtLineStarts m atStart 0 (withReturns t) = allAtLineStarts m atStart 0 t := by
  induction hlength : t.length using Nat.strong_induction_on generalizing t atStart with
  | _ n ih =>
    by_cases hmatch : atStart = true ∧ (m t).isSome = true
    · obtain ⟨rfl, hsome⟩ := hmatch
      obtain ⟨⟨a, rest⟩, hfound⟩ := Option.isSome_iff_exists.mp hsome
      obtain ⟨⟨front, rfl⟩, hshort⟩ := htakes t a rest hfound
      have hfront : front ≠ [] := by
        rintro rfl
        exact absurd hshort (Nat.lt_irrefl _)
      rw [hlength] at hshort
      have hreturns : m (withReturns front ++ withReturns rest) = some (a, withReturns rest) := by
        rw [← withReturns_append, hm, hfound]
        rfl
      have hplace : startsLineAfter true (withReturns front) = startsLineAfter true front := by
        unfold startsLineAfter
        rw [getLast?_withReturns]
      rw [withReturns_append, allAtLineStarts_of_match (withReturns_ne_nil hfront) hreturns, hplace,
        ih rest.length hshort _ rest rfl, allAtLineStarts_of_match hfront hfound]
    · have hnone : atStart = true → m t = none := by
        intro hstart
        rw [← Option.not_isSome_iff_eq_none]
        exact fun hsome => hmatch ⟨hstart, hsome⟩
      have hnone' : atStart = true → m (withReturns t) = none := by
        intro hstart
        rw [hm, hnone hstart]
        rfl
      cases t with
      | nil => rfl
      | cons c t =>
        have hshort : t.length < n := by
          rw [← hlength, List.length_cons]
          omega
        rw [allAtLineStarts_of_none hnone]
        by_cases hc : c = '\n'
        · rw [hc, withReturns_feed] at hnone' ⊢
          rw [allAtLineStarts_of_none hnone',
            allAtLineStarts_of_none (fun h => absurd h (by decide)),
            ih t.length hshort _ t rfl]
        · rw [withReturns_cons hc] at hnone' ⊢
          rw [allAtLineStarts_of_none hnone', ih t.length hshort _ t rfl]

end LineStarts

end Lexeme

/-! ## Declarations -/

namespace Declaration

open Text Lexeme

/-- What follows the word for exports decides which of them are found. -/
theorem exported_withReturns {next : Text → Option Text}
    (hnext : ∀ u, next (withReturns u) = (next u).map withReturns) (t : Text) :
    ((keyword? "export" (withReturns t)).bind fun u =>
        (next u).bind fun v => (identifier? v).bind fun found => some found.1) =
      (keyword? "export" t).bind fun u =>
        (next u).bind fun v => (identifier? v).bind fun found => some found.1 := by
  rw [keyword?_withReturns (by decide)]
  cases keyword? "export" t with
  | none => rfl
  | some u =>
    rw [Option.map_some, Option.bind_some, Option.bind_some, hnext]
    cases next u with
    | none => rfl
    | some v =>
      rw [Option.map_some, Option.bind_some, Option.bind_some, ignoresReturns_identifier?]
      cases identifier? v <;> rfl

/-- Reading an exported class ignores carriage returns. -/
theorem exportedClass?_withReturns (t : Text) :
    exportedClass? (withReturns t) = exportedClass? t := by
  apply exported_withReturns
  intro u
  rw [skipKeyword_withReturns (by decide), skipKeyword_withReturns (by decide),
    keyword?_withReturns (by decide)]

/-- Reading an exported alias ignores carriage returns. -/
theorem exportedAlias?_withReturns (t : Text) :
    exportedAlias? (withReturns t) = exportedAlias? t := by
  apply exported_withReturns
  intro u
  rw [skipKeyword_withReturns (by decide), anyKeyword?_withReturns (by decide)]

/-- Reading the exposed type ignores carriage returns. -/
theorem exposedType?_withReturns (t : Text) : exposedType? (withReturns t) = exposedType? t := by
  unfold exposedType?
  rw [firstAtLineStart_withReturns exportedClass?_withReturns,
    firstAtLineStart_withReturns exportedAlias?_withReturns]

/-- What follows a sign is looked for behind the same blanks. -/
theorem bind_sign_withReturns {β : Type} {sign : Text} (hsign : isSolid sign = true)
    {f : Text → Option β} {g : β → β} (hf : ∀ u, f (withReturns u) = (f u).map g) (t : Text) :
    (after? sign (trimStart (withReturns t))).bind f =
      ((after? sign (trimStart t)).bind f).map g := by
  rw [trimStart_withReturns, after?_withReturns hsign]
  cases after? sign (trimStart t) with
  | none => rfl
  | some u => exact hf u

/-- Reading the name of a collection ignores carriage returns. -/
theorem ignoresReturns_collectionName? : IgnoresReturns collectionName? := by
  intro t
  unfold collectionName?
  rw [ignoresReturns_identifier?]
  cases identifier? t with
  | none => rfl
  | some found =>
    have hmark : ∀ u, ((after? "!" (withReturns u)).or (after? "?" (withReturns u))).getD
        (withReturns u) = withReturns (((after? "!" u).or (after? "?" u)).getD u) := by
      intro u
      rw [after?_withReturns (by decide), after?_withReturns (by decide), ← Option.map_or]
      cases (after? "!" u).or (after? "?" u) <;> rfl
    simp only [Option.map_some, Option.bind_eq_bind, Option.bind_some]
    rw [trimStart_withReturns, hmark]
    apply bind_sign_withReturns (by decide)
    apply bind_sign_withReturns (by decide)
    apply bind_sign_withReturns (by decide)
    exact fun _ => rfl

/-- Reading a field with a collection ignores carriage returns. -/
theorem ignoresReturns_collectionField? : IgnoresReturns collectionField? := by
  intro t
  unfold collectionField?
  rw [trimStart_withReturns]
  exact ignoresReturns_collectionName?.afterModifiers (by decide) (trimStart t)

/-! ### What a field takes -/

/-- Reading the name of a collection takes something. -/
theorem takes_collectionName? : Takes collectionName? := by
  intro t name rest h
  unfold collectionName? at h
  simp only [Option.bind_eq_bind, Option.bind_eq_some_iff, Option.some.injEq, Prod.mk.injEq,
    Prod.exists] at h
  obtain ⟨_, u, hidentifier, v, hcolon, w, htype, x, hangle, -, rfl⟩ := h
  obtain ⟨hsuffix, hlt⟩ := takes_identifier? t _ u hidentifier
  have hmark : ((after? "!" (trimStart u)).or (after? "?" (trimStart u))).getD (trimStart u) <:+
      u := by
    cases hmarked : (after? "!" (trimStart u)).or (after? "?" (trimStart u)) with
    | none => exact trimStart_suffix u
    | some y =>
      refine List.IsSuffix.trans ?_ (trimStart_suffix u)
      rcases Option.or_eq_some_iff.mp hmarked with hy | ⟨-, hy⟩
      · exact suffix_of_after? hy
      · exact suffix_of_after? hy
  have hrest : x <:+ u := by
    refine (suffix_of_after? hangle).trans ((trimStart_suffix w).trans ?_)
    refine (suffix_of_after? htype).trans ((trimStart_suffix v).trans ?_)
    exact (suffix_of_after? hcolon).trans ((trimStart_suffix _).trans hmark)
  refine ⟨hrest.trans hsuffix, ?_⟩
  have hle := hrest.length_le
  omega

/-- Reading a field with a collection takes something. -/
theorem takes_collectionField? : Takes collectionField? := by
  intro t name rest h
  obtain ⟨hsuffix, hlt⟩ := takes_collectionName?.afterModifiers (trimStart t) name rest h
  have hle := (trimStart_suffix t).length_le
  exact ⟨hsuffix.trans (trimStart_suffix t), by omega⟩

/-- Reading all fields with collections ignores carriage returns. -/
theorem collectionFields_withReturns (t : Text) :
    collectionFields (withReturns t) = collectionFields t := by
  unfold collectionFields
  rw [allAtLineStarts_withReturns ignoresReturns_collectionField? takes_collectionField?]

end Declaration

namespace SourceModule

open Text

/-- A source without carriage returns is read alike if each of its line feeds gets one: the methods
with all that is known of them, the exposed type, and the fields that hold collections. -/
theorem read_insensitive_to_line_endings (source path : Text) (h : '\r' ∉ source) :
    (read (withReturns source) path).methods = (read source path).methods ∧
      (read (withReturns source) path).exposedType = (read source path).exposedType ∧
      (read (withReturns source) path).persistenceFields =
        (read source path).persistenceFields := by
  have hmethods : readMethods (withReturns source) = readMethods source := by
    unfold readMethods
    rw [lines_withReturns h]
  exact ⟨hmethods, Declaration.exposedType?_withReturns source,
    Declaration.collectionFields_withReturns source⟩

/-- A source in which an export, a field and a signature go over several lines. -/
def crewSource : Text :=
  unlines ["", "export default", "class CrewConcept \x7b", "  private readonly", "  crews:",
    "    Collection<Crew>;", "  sign(", "    name: string,", "  ): Promise<Crew[]> \x7b",
    "    return this.crews", "      .find(name);", "  \x7d", "\x7d"]

/-- The source of a crew with carriage returns is read like the one without. -/
theorem crew_read_with_returns :
    '\r' ∉ crewSource ∧ withReturns crewSource ≠ crewSource ∧
      (read (withReturns crewSource) "Crew.ts").exposedType = some "CrewConcept" ∧
      (read (withReturns crewSource) "Crew.ts").persistenceFields = ["crews"] ∧
      (read (withReturns crewSource) "Crew.ts").methods.map Method.name = ["sign"] ∧
      (read (withReturns crewSource) "Crew.ts").methods.map Method.returnType =
        ["Promise<Crew[]>"] := by
  have hreturn : '\r' ∉ crewSource := by decide +kernel
  obtain ⟨hmethods, htype, hfields⟩ :=
    read_insensitive_to_line_endings crewSource "Crew.ts" hreturn
  rw [hmethods, htype, hfields]
  exact ⟨hreturn, by decide +kernel, by decide +kernel, by decide +kernel, by decide +kernel,
    by decide +kernel⟩

end SourceModule

end Concordance
