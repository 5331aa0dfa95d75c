import Concordance.Proofs.Listing
import Concordance.Proofs.Lists
import Concordance.Text.Blank
import Mathlib.Data.List.DropRight

set_option autoImplicit false

/-!
# Trimmed texts and lines

A text is trimmed if trimming leaves it as it is, that is, if it neither starts nor ends with a
blank. Trimming is done once and for all, and a text that is put together from trimmed ones is cut
back into them. A text that ends each of its lines is split back into those lines.
-/

namespace Concordance.Text

variable {p : Char → Bool} {c : Char} {a b s t u : Text}

/-! ## Dropping characters at the ends -/

/-- Nothing is trimmed before a character that is kept. -/
theorem trimStartOf_cons_of_neg (h : p c = false) : trimStartOf p (c :: t) = c :: t := by
  simp [trimStartOf, h]

/-- Where nothing is trimmed off a beginning, nothing is off the whole. -/
theorem trimStartOf_append (hs : s ≠ []) (h : trimStartOf p s = s) :
    trimStartOf p (s ++ t) = s ++ t := by
  unfold trimStartOf at h ⊢
  rw [List.dropWhile_append, h, if_neg (by simpa using hs)]

/-- The end of a text is trimmed in its second piece, and in the first one if nothing is left of
that. -/
theorem trimEndOf_append (p : Char → Bool) (s t : Text) :
    trimEndOf p (s ++ t) = if trimEndOf p t = [] then trimEndOf p s else s ++ trimEndOf p t := by
  unfold trimEndOf
  rw [List.reverse_append, List.dropWhile_append]
  by_cases h : t.reverse.dropWhile p = []
  · simp [h]
  · simp [h]

/-- Where something is left of the end, the beginning is kept. -/
theorem trimEndOf_append_of_ne_nil (h : trimEndOf p t ≠ []) (s : Text) :
    trimEndOf p (s ++ t) = s ++ trimEndOf p t := by
  rw [trimEndOf_append, if_neg h]

/-- A character that is kept stays in front. -/
theorem trimEndOf_cons_of_neg (h : p c = false) : trimEndOf p (c :: t) = c :: trimEndOf p t := by
  have hc : trimEndOf p [c] = [c] := by simp [trimEndOf, h]
  rw [← List.singleton_append, trimEndOf_append, hc]
  split
  · next hnil => simp [hnil]
  · rfl

/-- Nothing is trimmed behind a character that is kept. -/
theorem trimEndOf_eq_self_of_getLast? (h : ∀ c, t.getLast? = some c → p c = false) :
    trimEndOf p t = t := by
  unfold trimEndOf
  cases hrev : t.reverse with
  | nil => simpa using hrev.symm
  | cons c r =>
    have hlast : t.getLast? = some c := by
      rw [← List.head?_reverse, hrev]
      rfl
    rw [List.dropWhile_cons_of_neg (by simp [h c hlast]), ← hrev, List.reverse_reverse]

/-- Nothing is trimmed in front of a first character that is kept. -/
theorem trimStartOf_eq_self_of_head? (h : ∀ c, t.head? = some c → p c = false) :
    trimStartOf p t = t := by
  cases t with
  | nil => rfl
  | cons c r => exact trimStartOf_cons_of_neg (h c rfl)

/-! ## Trimmed texts -/

/-- Trimming the end brings no blank to the start. -/
theorem trimStart_trimEnd_trimStart (t : Text) :
    trimStart (trimEnd (trimStart t)) = trimEnd (trimStart t) := by
  cases hstart : trimStart t with
  | nil => rfl
  | cons c rest =>
    have hhead := List.head?_dropWhile_not isBlank t
    have hdrop : t.dropWhile isBlank = c :: rest := hstart
    rw [hdrop] at hhead
    unfold trimEnd trimStart
    rw [trimEndOf_cons_of_neg hhead, trimStartOf_cons_of_neg hhead]

/-- It does not matter at which end trimming begins. -/
theorem trimStart_trimEnd (t : Text) : trimStart (trimEnd t) = trim t := by
  have hblank : ∀ c ∈ t.takeWhile isBlank, isBlank c = true := fun c hc =>
    List.mem_takeWhile_imp hc
  have hsplit : t.takeWhile isBlank ++ trimStart t = t := List.takeWhile_append_dropWhile
  have hend : trimEnd t = if trim t = [] then trimEnd (t.takeWhile isBlank)
      else t.takeWhile isBlank ++ trim t := by
    conv_lhs => rw [← hsplit]
    exact trimEndOf_append isBlank _ _
  rw [hend]
  split
  · next hnil =>
    have hall : trimEnd (t.takeWhile isBlank) = [] := by
      unfold trimEnd trimEndOf
      rw [List.reverse_eq_nil_iff, List.dropWhile_eq_nil_iff]
      exact fun c hc => hblank c (List.mem_reverse.mp hc)
    rw [hall, hnil]
    rfl
  · unfold trimStart trimStartOf
    rw [List.dropWhile_append_of_pos hblank]
    exact trimStart_trimEnd_trimStart t

/-- The end is trimmed at once. -/
@[simp] theorem trimEnd_trimEnd (t : Text) : trimEnd (trimEnd t) = trimEnd t := by
  unfold trimEnd trimEndOf
  rw [List.reverse_reverse, List.dropWhile_idempotent]

/-- A text is trimmed at once. -/
@[simp] theorem trim_trim (t : Text) : trim (trim t) = trim t := by
  unfold trim
  rw [trimStart_trimEnd_trimStart, trimEnd_trimEnd]

/-- A trimmed text has no blanks at its start. -/
theorem trimStart_eq_self_of_trim (h : trim t = t) : trimStart t = t := by
  rw [← h]
  exact trimStart_trimEnd_trimStart t

/-- A trimmed text has no blanks at its end. -/
theorem trimEnd_eq_self_of_trim (h : trim t = t) : trimEnd t = t := by
  rw [← h]
  exact trimEnd_trimEnd (trimStart t)

/-- A text without blanks at its ends is trimmed. -/
theorem trim_eq_self (hstart : ∀ c, t.head? = some c → isBlank c = false)
    (hend : ∀ c, t.getLast? = some c → isBlank c = false) : trim t = t := by
  unfold trim trimStart trimEnd
  rw [trimStartOf_eq_self_of_head? hstart, trimEndOf_eq_self_of_getLast? hend]

/-- A text without blanks is trimmed. -/
theorem trim_eq_self_of_forall (h : ∀ c ∈ t, isBlank c = false) : trim t = t :=
  trim_eq_self (fun c hc => h c (List.mem_of_head? hc)) (fun c hc => h c (List.mem_of_getLast? hc))

/-- A trimmed text does not begin with a blank. -/
theorem isBlank_eq_false_of_trim (h : trim (c :: t) = c :: t) : isBlank c = false := by
  have hhead := List.head?_dropWhile_not isBlank (c :: t)
  have hdrop : (c :: t).dropWhile isBlank = c :: t := trimStart_eq_self_of_trim h
  rwa [hdrop] at hhead

/-- A text without blanks at its end does not end with one. -/
theorem isBlank_getLast?_of_trimEnd (h : trimEnd t = t) (hc : t.getLast? = some c) :
    isBlank c = false := by
  have hdrop : t.reverse.dropWhile isBlank = t.reverse := by
    rw [← List.reverse_inj, List.reverse_reverse]
    exact h
  have hhead := List.head?_dropWhile_not isBlank t.reverse
  rw [hdrop, List.head?_reverse, hc] at hhead
  exact hhead

/-- A text is trimmed if its first piece is at the start and its second one is at the end. -/
theorem trim_append (hs : s ≠ []) (hstart : trimStart s = s) (ht : t ≠ []) (hend : trimEnd t = t) :
    trim (s ++ t) = s ++ t := by
  have hne : trimEndOf isBlank t ≠ [] := by
    intro hnil
    exact ht (hend.symm.trans hnil)
  unfold trim
  rw [trimStart, trimStartOf_append hs hstart, trimEnd, trimEndOf_append_of_ne_nil hne]
  exact congrArg (s ++ ·) hend

/-- A space before another character is kept at the end. -/
theorem trimEnd_space_cons (hc : isBlank c = false) (t : Text) :
    trimEnd (' ' :: c :: t) = ' ' :: c :: trimEnd t := by
  have hrest : trimEndOf isBlank (c :: t) = c :: trimEnd t := trimEndOf_cons_of_neg hc
  have happend := trimEndOf_append_of_ne_nil (by rw [hrest]; exact List.cons_ne_nil _ _) [' ']
  rwa [hrest] at happend

/-- A space between two pieces is kept, and the end of the second is trimmed. -/
theorem trim_append_space_cons (hs : s ≠ []) (hstart : trimStart s = s) (hc : isBlank c = false)
    (t : Text) : trim (s ++ ' ' :: c :: t) = s ++ ' ' :: c :: trimEnd t := by
  have hend := trimEnd_space_cons hc t
  unfold trim
  rw [trimStart, trimStartOf_append hs hstart]
  unfold trimEnd at hend ⊢
  rw [trimEndOf_append_of_ne_nil (by rw [hend]; exact List.cons_ne_nil _ _), hend]

/-- Trimming adds no characters. -/
theorem length_trim_le (t : Text) : (trim t).length ≤ t.length := by
  unfold trim trimEnd trimEndOf trimStart trimStartOf
  rw [List.length_reverse]
  have hend := (List.dropWhile_sublist isBlank (l := (t.dropWhile isBlank).reverse)).length_le
  have hstart := (List.dropWhile_sublist isBlank (l := t)).length_le
  rw [List.length_reverse] at hend
  omega

/-- A blank in front is trimmed off. -/
theorem trim_cons_of_isBlank (hc : isBlank c = true) : trim (c :: t) = trim t := by
  unfold trim trimStart trimStartOf
  rw [List.dropWhile_cons_of_pos hc]

/-- Where no blank is in front, only the end is trimmed. -/
theorem trim_cons_of_neg (hc : isBlank c = false) : trim (c :: t) = c :: trimEnd t := by
  unfold trim trimStart trimEnd
  rw [trimStartOf_cons_of_neg hc, trimEndOf_cons_of_neg hc]

/-- A blank at the end is trimmed off. -/
theorem trim_append_of_isBlank (hc : isBlank c = true) : trim (t ++ [c]) = trim t := by
  have hend : ∀ s, trimEnd (s ++ [c]) = trimEnd s := by
    intro s
    have hnil : trimEndOf isBlank [c] = [] := by simp [trimEndOf, hc]
    unfold trimEnd
    rw [trimEndOf_append, if_pos hnil]
  unfold trim trimStart trimStartOf
  rw [List.dropWhile_append]
  split
  · next hblank =>
    rw [List.isEmpty_iff.mp hblank, List.dropWhile_cons_of_pos hc]
    rfl
  · exact hend _

/-- A character that is kept is not trimmed off the start. -/
theorem mem_trimStartOf (hc : c ∈ t) (hp : p c = false) : c ∈ trimStartOf p t := by
  rw [← List.takeWhile_append_dropWhile (p := p) (l := t), List.mem_append] at hc
  rcases hc with hc | hc
  · have hp' := List.mem_takeWhile_imp hc
    rw [hp] at hp'
    cases hp'
  · exact hc

/-- A character that is kept is not trimmed off the end. -/
theorem mem_trimEndOf (hc : c ∈ t) (hp : p c = false) : c ∈ trimEndOf p t :=
  List.mem_reverse.mpr (mem_trimStartOf (List.mem_reverse.mpr hc) hp)

/-- A character that is no blank is not trimmed off. -/
theorem mem_trim_of_not_isBlank (hc : c ∈ t) (hblank : isBlank c = false) : c ∈ trim t :=
  mem_trimEndOf (mem_trimStartOf hc hblank) hblank

/-- What is trimmed off the end are blanks. -/
theorem exists_trimEnd_append (t : Text) :
    ∃ back, t = trimEnd t ++ back ∧ ∀ c ∈ back, isBlank c = true := by
  refine ⟨(t.reverse.takeWhile isBlank).reverse, ?_, ?_⟩
  · unfold trimEnd trimEndOf
    rw [← List.reverse_append, List.takeWhile_append_dropWhile, List.reverse_reverse]
  · intro c hc
    exact List.mem_takeWhile_imp (List.mem_reverse.mp hc)

/-- Trimming brings no character in. -/
theorem mem_of_mem_trim (h : c ∈ trim t) : c ∈ t := by
  unfold trim trimEnd trimEndOf at h
  have hstart := (List.dropWhile_sublist isBlank).mem (List.mem_reverse.mp h)
  exact (List.dropWhile_sublist isBlank).mem (List.mem_reverse.mp hstart)

/-! ## Cutting -/

/-- A text is cut at the first character of a class. -/
theorem cutWhere_append (hs : ∀ d ∈ s, p d = false) (hc : p c = true) (t : Text) :
    cutWhere p (s ++ c :: t) = some (s, t) := by
  induction s with
  | nil => simp [cutWhere, hc]
  | cons d s ih =>
    have hd : p d = false := hs d List.mem_cons_self
    rw [List.cons_append, cutWhere, if_neg (by simp [hd]),
      ih fun e he => hs e (List.mem_cons_of_mem _ he)]
    rfl

/-- A text is cut at the first occurrence of a character. -/
theorem cutAt_append (hs : c ∉ s) (t : Text) : cutAt c (s ++ c :: t) = some (s, t) := by
  apply cutWhere_append
  · intro d hd
    have : d ≠ c := fun h => hs (h ▸ hd)
    simpa using this
  · simp

/-- A cut is at the first character of the class. -/
theorem of_cutWhere (h : cutWhere p t = some (a, b)) :
    ∃ c, p c = true ∧ t = a ++ c :: b ∧ ∀ d ∈ a, p d = false := by
  induction t generalizing a with
  | nil => cases h
  | cons d t ih =>
    rw [cutWhere] at h
    split at h
    · next hd =>
      obtain ⟨rfl, rfl⟩ : [] = a ∧ t = b := by simpa using h
      exact ⟨d, hd, rfl, by simp⟩
    · next hd =>
      obtain ⟨⟨a', b'⟩, hcut, heq⟩ := Option.map_eq_some_iff.mp h
      obtain ⟨rfl, rfl⟩ := Prod.mk.inj heq
      obtain ⟨c, hc, rfl, ha⟩ := ih hcut
      refine ⟨c, hc, rfl, ?_⟩
      intro e he
      rcases List.mem_cons.mp he with rfl | he
      · simpa using hd
      · exact ha e he

/-- A text is cut in two pieces just if the character is between them and not in the first. -/
theorem cutAt_eq_some_iff : cutAt c t = some (a, b) ↔ t = a ++ c :: b ∧ c ∉ a := by
  constructor
  · intro h
    obtain ⟨d, hd, rfl, ha⟩ := of_cutWhere h
    obtain rfl : d = c := by simpa using hd
    exact ⟨rfl, fun hmem => by simpa using ha d hmem⟩
  · rintro ⟨rfl, ha⟩
    exact cutAt_append ha b

/-- A text is not cut just if it holds no character of the class. -/
theorem cutWhere_eq_none_iff : cutWhere p t = none ↔ ∀ d ∈ t, p d = false := by
  induction t with
  | nil => simp [cutWhere]
  | cons d t ih =>
    rw [cutWhere, List.forall_mem_cons, ← ih]
    cases hd : p d with
    | true => simp
    | false => simp

/-- A text without the character is not cut. -/
theorem cutAt_eq_none (h : c ∉ t) : cutAt c t = none := by
  refine cutWhere_eq_none_iff.mpr fun d hd => decide_eq_false ?_
  rintro rfl
  exact h hd

/-! ## Lines -/

/-- A line that does not end with a carriage return is kept. -/
theorem chopReturn_eq_self (h : t.getLast? ≠ some '\r') : chopReturn t = t := by
  have hnone : before? ['\r'] t = none := by
    rw [← Option.not_isSome_iff_eq_none]
    intro hsome
    have hsuffix : ['\r'] <:+ t := endsWith_iff.mp hsome
    obtain ⟨front, rfl⟩ := hsuffix
    simp at h
  unfold chopReturn
  rw [hnone]
  rfl

/-- Trimming takes off the carriage return at the end of a line, too. -/
theorem trim_chopReturn (line : Text) : trim (chopReturn line) = trim line := by
  unfold chopReturn
  cases hbefore : before? ['\r'] line with
  | none => rfl
  | some front =>
    obtain ⟨rest, hafter, rfl⟩ := Option.map_eq_some_iff.mp hbefore
    have hline : line = rest.reverse ++ ['\r'] := by
      rw [← List.reverse_reverse line, after?_eq_some_iff.mp hafter, List.reverse_append]
      rfl
    rw [hline, trim_append_of_isBlank (by decide)]
    rfl

/-- The text of some lines, each ended by a line feed. -/
def unlines (ls : List Text) : Text := ls.flatMap fun l => l ++ ['\n']

/-- Lines as they follow another one. -/
def furtherLines (ls : List Text) : Text := ls.flatMap ('\n' :: ·)

/-- Further lines are written one after the other. -/
@[simp, grind =] theorem furtherLines_append (ls more : List Text) :
    furtherLines (ls ++ more) = furtherLines ls ++ furtherLines more :=
  List.flatMap_append

/-- A line and further ones are joined by line feeds. -/
theorem joinWith_feed_cons (l : Text) (ls : List Text) :
    joinWith "\n" (l :: ls) = l ++ furtherLines ls := by
  unfold joinWith furtherLines
  induction ls generalizing l with
  | nil => simp
  | cons next ls ih =>
    rw [List.intercalate_cons_of_ne_nil (List.cons_ne_nil _ _), ih, List.flatMap_cons,
      List.append_assoc]
    rfl

/-- A line is split off the text that lines make. -/
theorem splitOn_unlines_cons {l : Text} (hl : '\n' ∉ l) (rest : List Text) :
    (unlines (l :: rest)).splitOn '\n' = l :: (unlines rest).splitOn '\n' := by
  unfold unlines
  rw [List.flatMap_cons, List.append_assoc]
  exact splitOn_append_cons hl _

/-- Lines without line ends are read back from their text. -/
theorem lines_unlines {ls : List Text} (hfeed : ∀ l ∈ ls, '\n' ∉ l)
    (hreturn : ∀ l ∈ ls, l.getLast? ≠ some '\r') : lines (unlines ls) = ls := by
  unfold lines
  induction ls with
  | nil => rfl
  | cons l rest ih =>
    have hrest := ih (fun k hk => hfeed k (List.mem_cons_of_mem _ hk))
      (fun k hk => hreturn k (List.mem_cons_of_mem _ hk))
    rw [splitOn_unlines_cons (hfeed l List.mem_cons_self)]
    cases hpieces : (unlines rest).splitOn '\n' with
    | nil => exact absurd hpieces (List.splitOn_ne_nil _ _)
    | cons piece pieces =>
      rw [hpieces] at hrest
      rw [closeLines, hrest, chopReturn_eq_self (hreturn l List.mem_cons_self)]

/-- Later members are numbered on. -/
@[simp, grind =] theorem numberFrom_append {α : Type} (n : Nat) (l l' : List α) :
    numberFrom n (l ++ l') = numberFrom n l ++ numberFrom (n + l.length) l' := by
  induction l generalizing n with
  | nil => rfl
  | cons a rest ih =>
    have hlength : n + (a :: rest).length = n + 1 + rest.length := by
      rw [List.length_cons]
      omega
    rw [List.cons_append, numberFrom, numberFrom, ih, hlength, List.cons_append]

end Concordance.Text
