import Concordance.Proofs.LowerCase
import Concordance.Specification.Outline

set_option autoImplicit false

/-!
# Lines that are headings by their names

A line of a document is looked at for a heading wherever it stands. An identifier is a heading only
if it is the name of a part (`heading?_identifier`), and with a brace behind it only if it can be
taken for a title (`heading?_braced`). A line `name: text` is a heading exactly if the name is
`purpose` in some letter case, since a purpose may start on the line of its heading
(`heading?_fieldLine`).
-/

namespace Concordance

open Text Outline Lexeme

/-! ## Where a name ends -/

namespace Text

/-- The characters that can follow the name of a part on its line. -/
def isStop (c : Char) : Bool := c = ':' || c = ' '

section Stops

variable {a b s s' t t' word : Text} {c c' : Char}

/-- Texts without a stop are told from what follows them by the first stop. -/
theorem append_stop_inj {p : Char → Bool} (hs : ∀ d ∈ s, p d = false) (hs' : ∀ d ∈ s', p d = false)
    (hc : p c = true) (hc' : p c' = true) (h : s ++ c :: t = s' ++ c' :: t') :
    s = s' ∧ c = c' ∧ t = t' := by
  have hcut : some (s, t) = some (s', t') := by
    rw [← cutWhere_append hs hc t, h, cutWhere_append hs' hc' t']
  obtain ⟨rfl, rfl⟩ := Prod.mk.inj (Option.some.inj hcut)
  exact ⟨rfl, (List.cons.inj (List.append_cancel_left h)).1, rfl⟩

/-- A lower-case form of an identifier holds no stop. -/
theorem isStop_eq_false_of_isLowering (hs : IsIdentifier s) (h : IsLowering s a) :
    ∀ d ∈ a, isStop d = false := by
  intro d hd
  have hcolon : ':' ∉ a := h.not_mem (hs.not_mem (by decide +kernel)) (by decide +kernel)
  have hspace : ' ' ∉ a := h.not_mem (hs.not_mem (by decide +kernel)) (by decide +kernel)
  have hne : d ≠ ':' ∧ d ≠ ' ' := ⟨fun e => hcolon (e ▸ hd), fun e => hspace (e ▸ hd)⟩
  simp [isStop, hne]

/-- A word without a stop has none among its characters. -/
theorem forall_of_any_isStop (h : word.any isStop = false) : ∀ d ∈ word, isStop d = false := by
  simpa using h

/-- Behind a word and a stop comes what follows, if the text before the first stop is that word. -/
theorem of_after?_stop {rest : Text} (hword : word.any isStop = false)
    (ha : ∀ d ∈ a, isStop d = false) (hc : isStop c = true) (hc' : isStop c' = true)
    (h : after? (word ++ c' :: t) (a ++ c :: b) = some rest) :
    a = word ∧ c = c' ∧ b = t ++ rest := by
  have hsplit : word ++ c' :: (t ++ rest) = a ++ c :: b := by
    rw [after?_eq_some_iff.mp h, List.append_assoc, List.cons_append]
  obtain ⟨rfl, rfl, rfl⟩ := append_stop_inj (forall_of_any_isStop hword) ha hc' hc hsplit
  exact ⟨rfl, rfl, rfl⟩

/-- A text without a stop does not begin with one that has a stop. -/
theorem after?_eq_none_of_any_isStop (ha : ∀ d ∈ a, isStop d = false)
    (hword : word.any isStop = true) : after? word a = none := by
  cases h : after? word a with
  | none => rfl
  | some rest =>
    obtain ⟨d, hd, hstop⟩ := List.any_eq_true.mp hword
    have hmem : d ∈ a := by
      rw [after?_eq_some_iff.mp h]
      exact List.mem_append_left rest hd
    rw [ha d hmem] at hstop
    cases hstop

end Stops

end Text

/-! ## Headings -/

namespace Heading

variable {a b name type : Text} {c : Char}

/-- The names of the parts are made of small letters and spaces. -/
theorem part?_eq_none_of_mem (hc : c ∈ name) (h : (c.isLower || c = ' ') = false) :
    part? name = none := by
  have hne : ∀ word : Text, (word.all fun c => c.isLower || c = ' ') = true → name ≠ word := by
    rintro word hall rfl
    have hlower := List.all_eq_true.mp hall c hc
    rw [h] at hlower
    cases hlower
  unfold part?
  rw [if_neg (hne _ (by decide)), if_neg (hne _ (by decide)), if_neg (hne _ (by decide)),
    if_neg (hne _ (by decide)), if_neg (not_or.mpr ⟨hne _ (by decide), hne _ (by decide)⟩)]

/-- The text of a part stands on the line of its name if the name is what comes before the first
stop. -/
theorem inlined?_append (ha : ∀ d ∈ a, isStop d = false) (hname : name.any isStop = false)
    (hc : isStop c = true) (b line : Text) :
    inlined? name (a ++ c :: b) line =
      if a = name then some (trim (trimStartOf (· = ':') (line.drop name.length))) else none := by
  unfold inlined?
  split
  · next c' rest hafter =>
    by_cases hstop : c' = ':' ∨ c' = ' '
    · have hsplit := after?_eq_some_iff.mp hafter
      obtain ⟨rfl, -, -⟩ := append_stop_inj ha (forall_of_any_isStop hname) hc
        (by simpa [isStop] using hstop) hsplit
      rw [if_pos hstop, if_pos rfl]
    · have hne : a ≠ name := by
        rintro rfl
        rw [after?_append] at hafter
        obtain ⟨rfl, -⟩ := List.cons.inj (Option.some.inj hafter)
        exact hstop (by simpa [isStop] using hc)
      rw [if_neg hstop, if_neg hne]
  · next hafter =>
    have hne : a ≠ name := by
      rintro rfl
      exact hafter c b (after?_append _ _)
    rw [if_neg hne]

/-- A text whose first word is not concept with a space behind it has no title. -/
theorem after?_concept_eq_none (ha : ∀ d ∈ a, isStop d = false) (hc : isStop c = true)
    (h : c ≠ ' ' ∨ a ≠ "concept") : after? "concept " (a ++ c :: b) = none := by
  cases hafter : after? "concept " (a ++ c :: b) with
  | none => rfl
  | some rest =>
    have hword : ("concept" : Text).any isStop = false := by decide
    obtain ⟨hconcept, hspace, -⟩ := of_after?_stop (t := []) hword ha hc rfl hafter
    rcases h with h | h
    · exact absurd hspace h
    · exact absurd hconcept h

/-- A text whose first stop is not a space before the letter p does not begin with an operational
principle. -/
theorem after?_principle_eq_none (ha : ∀ d ∈ a, isStop d = false) (hc : isStop c = true)
    (hb : c = ' ' → b.head? ≠ some 'p') : after? "operational principle" (a ++ c :: b) = none := by
  cases h : after? "operational principle" (a ++ c :: b) with
  | none => rfl
  | some rest =>
    have hword : ("operational" : Text).any isStop = false := by decide
    obtain ⟨-, hspace, rfl⟩ := of_after?_stop (t := "principle") hword ha hc rfl h
    exact absurd rfl (hb hspace)

/-- A text without a stop has nothing inlined. -/
theorem inlined?_eq_none_of_isStop (h : ∀ d ∈ a, isStop d = false) (name line : Text) :
    inlined? name a line = none := by
  unfold inlined?
  split
  · next c rest hafter =>
    have hmem : c ∈ a := by
      rw [after?_eq_some_iff.mp hafter]
      simp
    have hstop := h c hmem
    rw [if_neg (by simpa [isStop] using hstop)]
  · rfl

/-- The space behind the first colon keeps that colon from being dropped. -/
theorem part?_colon_space (a b : Text) :
    part? (trim (trimEndOf (· = ':') (a ++ ':' :: ' ' :: b))) = none := by
  have hend : trimEndOf (· = ':') (' ' :: b) = ' ' :: trimEndOf (· = ':') b :=
    trimEndOf_cons_of_neg (by decide)
  have hfirst := trimEndOf_append_of_ne_nil (p := (· = ':')) (t := ' ' :: b) (by simp [hend])
    (a ++ [':'])
  have hsplit : a ++ ':' :: ' ' :: b = (a ++ [':']) ++ ' ' :: b := by simp
  rw [hsplit, hfirst]
  exact part?_eq_none_of_mem (c := ':') (mem_trim_of_not_isBlank (by simp) (by decide)) (by decide)

section Names

variable (hname : IsIdentifier name)
include hname

/-- An identifier has no hash in front to take off. -/
theorem trimStartOf_hash (rest : Text) : trimStartOf (· = '#') (name ++ rest) = name ++ rest := by
  obtain ⟨c, t, rfl, hc, -⟩ := hname.exists_cons
  apply trimStartOf_cons_of_neg
  rw [decide_eq_false_iff_not]
  rintro rfl
  exact absurd hc (by decide)

/-- A text with an identifier in front does not begin with a character that no identifier begins
with. -/
theorem startsWith_eq_false (hc : startsIdentifier c = false) (lead rest : Text) :
    startsWith (c :: lead) (name ++ rest) = false := by
  obtain ⟨d, t, rfl, hd, -⟩ := hname.exists_cons
  have hne : c ≠ d := by
    rintro rfl
    rw [hd] at hc
    cases hc
  simp [startsWith, after?, hne]

/-- A text with an identifier in front is no comment. -/
theorem isComment_append (rest : Text) : isComment (name ++ rest) = false := by
  have hhash : startsWith "#" (name ++ rest) = false :=
    startsWith_eq_false hname (by decide) [] rest
  have hslashes : startsWith "//" (name ++ rest) = false :=
    startsWith_eq_false hname (by decide) ['/'] rest
  rw [isComment, hhash, hslashes]
  rfl

/-- A line that starts with an identifier is a heading only by what its lower-case form says. It may
read as a title only if there is one already. -/
theorem heading?_of_lower {titled : Bool} {rest folded : Text}
    (htrim : trim (name ++ rest) = name ++ rest) (hfolded : lower (name ++ rest) = folded)
    (htitle : after? "concept " folded = none ∨ titled = true)
    (hpart : part? (trim (trimEndOf (· = ':') folded)) = none)
    (hprinciple : after? "operational principle" folded = none) :
    heading? titled (name ++ rest) =
      if startsWith "concept " folded then none
      else (inlined? "purpose" folded (name ++ rest)).map
        fun text => .opens .purpose (some text) := by
  have hhash : startsWith "#" (name ++ rest) = false :=
    startsWith_eq_false hname (by decide) [] rest
  have hnone : inlined? "operational principle" folded (name ++ rest) = none := by
    unfold inlined?
    rw [hprinciple]
  unfold heading? parse?
  simp only [trimStartOf_hash hname, htrim, hfolded, hpart, hhash, hnone]
  split
  · next hconcept =>
    rcases htitle with hafter | rfl
    · rw [startsWith, hafter] at hconcept
      cases hconcept
    · split
      · rfl
      · rfl
  · cases inlined? "purpose" folded (name ++ rest) with
    | none => rfl
    | some text => simp [isTitle]

/-- A field line is a heading if the field is called like the purpose. -/
theorem heading?_fieldLine (titled : Bool) (htrim : trim type = type) (hne : type ≠ []) :
    heading? titled (name ++ ": " ++ type) =
      if lower name = "purpose" then some (.opens .purpose (some type)) else none := by
  obtain ⟨a, ha, hlowering⟩ := exists_isLowering_append [] name (':' :: ' ' :: type)
  obtain ⟨b, hb⟩ : ∃ b, lower (name ++ ':' :: ' ' :: type) = a ++ ':' :: ' ' :: b := ⟨_, ha⟩
  have hstops := isStop_eq_false_of_isLowering hname hlowering
  have hassoc : name ++ ": " ++ type = name ++ ':' :: ' ' :: type := by simp
  have hline : trim (name ++ ':' :: ' ' :: type) = name ++ ':' :: ' ' :: type := by
    rw [← hassoc]
    exact trim_append (by simp) (trimStart_append_of_identifier hname _) hne
      (trimEnd_eq_self_of_trim htrim)
  have htitle : after? "concept " (a ++ ':' :: ' ' :: b) = none :=
    after?_concept_eq_none hstops rfl (Or.inl (by decide))
  rw [hassoc, heading?_of_lower hname hline hb (Or.inl htitle) (part?_colon_space a b)
    (after?_principle_eq_none hstops rfl (fun h => by cases h)), inlined?_append hstops rfl rfl,
    startsWith, htitle]
  have hiff : a = "purpose" ↔ lower name = "purpose" :=
    hlowering.eq_iff (isLowering_lower name) (by decide)
  by_cases hpurpose : lower name = "purpose"
  · obtain rfl := hiff.mpr hpurpose
    have hlength : ("purpose" : Text).length = name.length := hlowering.length_eq (by decide)
    have hdrop : (name ++ ':' :: ' ' :: type).drop ("purpose" : Text).length =
        ':' :: ' ' :: type := by
      rw [hlength, List.drop_left]
    have htext : trim (trimStartOf (· = ':') (':' :: ' ' :: type)) = type := by
      have hcolon : trimStartOf (· = ':') (':' :: ' ' :: type) = ' ' :: type := rfl
      rw [hcolon, trim_cons_of_isBlank (by decide), htrim]
    rw [if_pos hpurpose, if_pos rfl, hdrop, htext]
    rfl
  · rw [if_neg (mt hiff.mp hpurpose), if_neg hpurpose]
    rfl

/-- The lower case of an identifier has no blanks at its ends. -/
theorem trim_lower : trim (lower name) = lower name := by
  apply trim_eq_self_of_forall
  intro d hd
  rw [← Bool.not_eq_true]
  intro hblank
  refine (isLowering_lower name).not_mem ?_ (isLowered_eq_false_of_isBlank hblank) hd
  intro hmem
  rw [isBlank_eq_false_of_identifier (hname.char hmem)] at hblank
  cases hblank

/-- An identifier is a heading only if it is the name of a part. -/
theorem heading?_identifier (titled : Bool) (hpart : part? (lower name) = none) :
    heading? titled name = none := by
  have hstops := isStop_eq_false_of_isLowering hname (isLowering_lower name)
  have hnone : ∀ word : Text, word.any isStop = true → after? word (lower name) = none :=
    fun word hword => after?_eq_none_of_any_isStop hstops hword
  have hcolon : trimEndOf (· = ':') (lower name) = lower name := by
    apply trimEndOf_eq_self_of_getLast?
    intro d hd
    have hstop := hstops d (List.mem_of_getLast? hd)
    simp only [isStop, Bool.or_eq_false_iff] at hstop
    exact hstop.1
  have hline : trim (name ++ []) = name ++ [] := by
    rw [List.append_nil]
    exact hname.trim
  have hlower : lower (name ++ []) = lower name := by rw [List.append_nil]
  have hheading : heading? titled (name ++ []) = _ :=
    heading?_of_lower hname hline hlower (Or.inl (hnone _ (by decide)))
      (by rwa [hcolon, trim_lower hname]) (hnone _ (by decide))
  rw [List.append_nil, inlined?_eq_none_of_isStop hstops, Option.map_none, ite_self] at hheading
  exact hheading

/-- An identifier and a brace have no blanks at their ends. -/
theorem trim_braced : trim (name ++ [' ', '\x7b']) = name ++ [' ', '\x7b'] := by
  have happend := trim_append (s := name ++ [' ']) (t := ['\x7b']) (by simp)
    (trimStart_append_of_identifier hname _) (by simp) (by decide)
  rwa [List.append_assoc] at happend

/-- A name and a brace are no heading, unless the name is that of a part or the document lacks its
title and the name is concept. -/
theorem heading?_braced {titled : Bool} (htitle : lower name ≠ "concept" ∨ titled = true)
    (hpart : part? (lower name) = none) : heading? titled (name ++ [' ', '\x7b']) = none := by
  obtain ⟨a, ha, hlowering⟩ := exists_isLowering_append [] name [' ', '\x7b']
  have hfolded : lower (name ++ [' ', '\x7b']) = a ++ [' ', '\x7b'] := ha
  have hstops := isStop_eq_false_of_isLowering hname hlowering
  have hfoldedPart : part? (trim (trimEndOf (· = ':') (a ++ [' ', '\x7b']))) = none := by
    apply part?_eq_none_of_mem (c := '\x7b') _ (by decide)
    exact mem_trim_of_not_isBlank (mem_trimEndOf (by simp) (by decide)) (by decide)
  have hne : a ≠ "purpose" := by
    intro hpurpose
    rw [(hlowering.eq_iff (isLowering_lower name) (by decide)).mp hpurpose] at hpart
    cases hpart
  have hconcept : after? "concept " (a ++ [' ', '\x7b']) = none ∨ titled = true := by
    apply htitle.imp_left
    intro hname_ne
    apply after?_concept_eq_none hstops rfl
    exact Or.inr (mt (hlowering.eq_iff (isLowering_lower name) (by decide)).mp hname_ne)
  rw [heading?_of_lower hname (trim_braced hname) hfolded hconcept hfoldedPart
    (after?_principle_eq_none hstops rfl (fun _ => by decide)), inlined?_append hstops rfl rfl,
    if_neg hne, Option.map_none, ite_self]

end Names

end Heading

end Concordance
