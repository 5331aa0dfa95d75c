import Concordance.Proofs.ClassNames

set_option autoImplicit false

/-!
# Files that mention a concept

A related file is shown with a concept if its text holds the name of the concept or of its class as
a word. The search goes from place to place, and at each tries the shorter name before the longer
one; what it finds there lies between two boundaries (`mentionsAfter_iff`). A name that is made up
of characters of words has a boundary in front of it and behind it just where no such character
touches it (`mentions_iff_standsAlone`), so the search misses no occurrence on its own and takes
none that is a part of a longer word.
-/

namespace Concordance

namespace Text

variable {name rest t : Text} {names : List Text} {last : Option Char}

/-! ## Occurrences between boundaries -/

/-- In what follows a character one of the names occurs and stands between boundaries. -/
def OccursAfter (names : List Text) (last : Option Char) (t : Text) : Prop :=
  ∃ front name rest, name ∈ names ∧ t = front ++ (name ++ rest) ∧
    isBoundary (front.getLast?.or last) (name ++ rest) = true ∧
    isBoundary (name.getLast?.or (front.getLast?.or last)) rest = true

/-- A mention starts where one of the names stands with a boundary on either side of it. -/
theorem startsWithMention_iff :
    startsWithMention names last t = true ↔
      ∃ name rest, name ∈ names ∧ t = name ++ rest ∧ isBoundary last (name ++ rest) = true ∧
        isBoundary (name.getLast?.or last) rest = true := by
  simp only [startsWithMention, Bool.and_eq_true, List.any_eq_true, Option.any_eq_true,
    after?_eq_some_iff]
  constructor
  · rintro ⟨hfront, name, hname, rest, rfl, hrest⟩
    exact ⟨name, rest, hname, rfl, hfront, hrest⟩
  · rintro ⟨name, rest, hname, rfl, hfront, hrest⟩
    exact ⟨hfront, name, hname, rest, rfl, hrest⟩

/-- A name occurs at the first character or behind it. -/
@[simp, grind =] theorem occursAfter_cons {c : Char} :
    OccursAfter names last (c :: t) ↔
      startsWithMention names last (c :: t) = true ∨ OccursAfter names (some c) t := by
  rw [startsWithMention_iff]
  constructor
  · rintro ⟨front, name, rest, hname, ht, hfront, hrest⟩
    cases front with
    | nil => exact Or.inl ⟨name, rest, hname, ht, hfront, hrest⟩
    | cons d front =>
      obtain ⟨rfl, rfl⟩ := List.cons.inj ht
      rw [getLast?_cons_or] at hfront hrest
      exact Or.inr ⟨front, name, rest, hname, rfl, hfront, hrest⟩
  · rintro (⟨name, rest, hname, ht, hfront, hrest⟩ | ⟨front, name, rest, hname, rfl, hfront, hrest⟩)
    · exact ⟨[], name, rest, hname, ht, hfront, hrest⟩
    · refine ⟨c :: front, name, rest, hname, rfl, ?_, ?_⟩
      · rwa [getLast?_cons_or]
      · rwa [getLast?_cons_or]

/-- In the empty text a name occurs only if it starts there. -/
@[simp, grind =] theorem occursAfter_nil :
    OccursAfter names last [] ↔ startsWithMention names last [] = true := by
  rw [startsWithMention_iff]
  constructor
  · rintro ⟨front, name, rest, hname, ht, hfront, hrest⟩
    obtain ⟨rfl, hnil⟩ := List.append_eq_nil_iff.mp ht.symm
    exact ⟨name, rest, hname, hnil.symm, hfront, hrest⟩
  · rintro ⟨name, rest, hname, ht, hfront, hrest⟩
    exact ⟨[], name, rest, hname, ht, hfront, hrest⟩

/-- The search ends with success just if there is an occurrence between boundaries. -/
theorem mentionsAfter_iff : mentionsAfter names last t = true ↔ OccursAfter names last t := by
  induction t generalizing last with
  | nil => simp [mentionsAfter]
  | cons c t ih => simp [mentionsAfter, ih]

/-! ## Words -/

/-- A name is a word if it is made up of characters of words. -/
def IsWord (name : Text) : Prop := name ≠ [] ∧ name.all isWordChar = true

instance (name : Text) : Decidable (IsWord name) := inferInstanceAs (Decidable (_ ∧ _))

/-- A word begins with a character of words. -/
theorem IsWord.beginsWithWordChar_append (h : IsWord name) (rest : Text) :
    beginsWithWordChar (name ++ rest) = true := by
  obtain ⟨hne, hall⟩ := h
  cases name with
  | nil => exact absurd rfl hne
  | cons c name => exact List.all_eq_true.mp hall c List.mem_cons_self

/-- A word ends with a character of words. -/
theorem IsWord.any_getLast? (h : IsWord name) (last : Option Char) :
    (name.getLast?.or last).any isWordChar = true := by
  obtain ⟨hne, hall⟩ := h
  rw [List.getLast?_eq_some_getLast hne]
  exact List.all_eq_true.mp hall _ (List.getLast_mem hne)

/-- A boundary comes before a word just where no character of words does. -/
theorem IsWord.isBoundary_append (h : IsWord name) :
    isBoundary last (name ++ rest) = true ↔ last.any isWordChar = false := by
  simp [isBoundary, h.beginsWithWordChar_append]

/-- A boundary comes after a word just where no character of words does. -/
theorem IsWord.isBoundary_getLast? (h : IsWord name) :
    isBoundary (name.getLast?.or last) rest = true ↔ beginsWithWordChar rest = false := by
  simp [isBoundary, h.any_getLast?]

/-- A word occurs at some place of a text, and no character of words comes right before it or right
after it. -/
def StandsAlone (word t : Text) : Prop :=
  ∃ i ≤ t.length, word <+: t.drop i ∧ ((t.take i).getLast?.any isWordChar) = false ∧
    ((t.drop (i + word.length)).head?.any isWordChar) = false

instance (word t : Text) : Decidable (StandsAlone word t) :=
  inferInstanceAs (Decidable (∃ i ≤ t.length, _))

/-- A word stands alone where no character of words is next to it. -/
theorem standsAlone_iff {word : Text} :
    StandsAlone word t ↔ ∃ front rest, t = front ++ (word ++ rest) ∧
      front.getLast?.any isWordChar = false ∧ beginsWithWordChar rest = false := by
  have hhead : ∀ rest : Text, rest.head?.any isWordChar = beginsWithWordChar rest := by
    intro rest
    cases rest <;> rfl
  constructor
  · rintro ⟨i, -, ⟨rest, hrest⟩, hfront, hback⟩
    refine ⟨t.take i, rest, ?_, hfront, ?_⟩
    · rw [hrest, List.take_append_drop]
    · rwa [← List.drop_drop, ← hrest, List.drop_left, hhead] at hback
  · rintro ⟨front, rest, rfl, hfront, hback⟩
    refine ⟨front.length, by simp, ?_, ?_, ?_⟩
    · rw [List.drop_left]
      exact List.prefix_append word rest
    · rwa [List.take_left]
    · rwa [← List.drop_drop, List.drop_left, List.drop_left, hhead]

/-- A text mentions words just if one of them stands alone in it. -/
theorem mentions_iff_standsAlone (h : ∀ name ∈ names, IsWord name) :
    mentions names t = true ↔ ∃ name ∈ names, StandsAlone name t := by
  unfold mentions
  rw [mentionsAfter_iff]
  simp only [standsAlone_iff]
  constructor
  · rintro ⟨front, name, rest, hname, rfl, hfront, hrest⟩
    rw [(h name hname).isBoundary_append, Option.or_none] at hfront
    rw [(h name hname).isBoundary_getLast?] at hrest
    exact ⟨name, hname, front, rest, rfl, hfront, hrest⟩
  · rintro ⟨name, hname, front, rest, rfl, hfront, hrest⟩
    refine ⟨front, name, rest, hname, rfl, ?_, ?_⟩
    · rwa [(h name hname).isBoundary_append, Option.or_none]
    · rwa [(h name hname).isBoundary_getLast?]

end Text

/-! ## Related files -/

namespace Run

open Text

variable {concept : Text}

/-- The base name of a word is a word. -/
theorem isWord_baseName (h : IsWord concept) : IsWord (baseName concept) := by
  refine ⟨baseName_ne_nil h.1, List.all_eq_true.mpr fun c hc => ?_⟩
  exact List.all_eq_true.mp h.2 c (mem_of_mem_baseName hc)

/-- The class name of a word is a word. -/
theorem isWord_classNameOf (h : IsWord concept) : IsWord (classNameOf concept) := by
  have hending : conceptEnding.all isWordChar = true := by decide
  refine ⟨List.append_ne_nil_of_left_ne_nil (isWord_baseName h).1 conceptEnding, ?_⟩
  rw [classNameOf, List.all_append, (isWord_baseName h).2, hending]
  rfl

/-- A text refers to a concept just if its base name or its class name stands alone in it. -/
theorem refersTo_iff (h : IsWord concept) (t : Text) :
    refersTo concept t = true ↔
      StandsAlone (baseName concept) t ∨ StandsAlone (classNameOf concept) t := by
  have hnames : ∀ name ∈ [baseName concept, classNameOf concept], IsWord name := by
    simp [isWord_baseName h, isWord_classNameOf h]
  rw [refersTo, mentions_iff_standsAlone hnames]
  simp

/-- Where a search pattern can be built, the files that refer to a concept are picked from all of
them. -/
theorem filesReferring_eq_ok {patternFault : Text → Option Text} {related : List RelatedFile}
    (h : related ≠ [] → patternFault (baseName concept) = none) :
    filesReferring patternFault related concept =
      .ok (related.filter fun f => refersTo concept f.text) := by
  cases related with
  | nil => rfl
  | cons f rest =>
    have hfault : patternFault (baseName concept) = none := h (List.cons_ne_nil f rest)
    simp only [filesReferring, hfault, List.isEmpty_cons, Bool.false_eq_true, if_false]

/-- The text of related files has each of them behind a line with its path. -/
theorem getD_relatedText (files : List RelatedFile) :
    (relatedText files).getD [] =
      files.flatMap fun f => ("// " ++ f.path ++ "\n" ++ f.text ++ "\n" : Text) := by
  cases files with
  | nil => rfl
  | cons f rest => rfl

/-- For a concept whose name is a word the related files are collected, in their order, whose text
holds the name without its ending, or that with the ending, as a word on its own; what is shown of
them is the path of each as a comment and its text. -/
theorem related_files_mention_the_concept (patternFault : Text → Option Text) (concept : Text)
    (hconcept : IsWord concept) (related : List RelatedFile)
    (hpattern : related ≠ [] → patternFault (baseName concept) = none) :
    ∃ files, filesReferring patternFault related concept = .ok files ∧
      files = related.filter (fun f =>
        StandsAlone (baseName concept) f.text ∨
          StandsAlone (baseName concept ++ "Concept") f.text) ∧
      (relatedText files).getD [] =
        files.flatMap fun f => ("// " ++ f.path ++ "\n" ++ f.text ++ "\n" : Text) := by
  have hfilter : related.filter (fun f => refersTo concept f.text) =
      related.filter fun f => StandsAlone (baseName concept) f.text ∨
        StandsAlone (baseName concept ++ "Concept") f.text := by
    refine List.filter_congr fun f _ => ?_
    rw [Bool.eq_iff_iff, decide_eq_true_iff, refersTo_iff hconcept]
    rfl
  refine ⟨_, ?_, rfl, getD_relatedText _⟩
  rw [← hfilter]
  exact filesReferring_eq_ok hpattern

/-- A file that names the class, one that names the concept behind a longer word and a dot, one that
has a longer word only, and one that has the name within a word. -/
def syncFiles : List RelatedFile :=
  [⟨"a.sync", "use TeamConcept;"⟩, ⟨"b.sync", "Teammate.Team\n"⟩, ⟨"c.sync", "Teammate"⟩,
    ⟨"d.sync", "_Team TeamConcepts"⟩]

/-- Of four files those two are collected in which the team or its class stands alone. -/
theorem team_files_collected :
    ∃ files, filesReferring (fun _ => none) syncFiles "TeamCONCEPT" = .ok files ∧
      files.map RelatedFile.path = ["a.sync", "b.sync"] ∧
      (relatedText files).getD [] =
        "// a.sync\nuse TeamConcept;\n// b.sync\nTeammate.Team\n\n" := by
  obtain ⟨files, hfiles, hfilter, htext⟩ :=
    related_files_mention_the_concept (fun _ => none) "TeamCONCEPT" (by decide +kernel) syncFiles
      fun _ => rfl
  have hpaths : (syncFiles.filter fun f =>
      StandsAlone (baseName "TeamCONCEPT") f.text ∨
        StandsAlone (baseName "TeamCONCEPT" ++ "Concept") f.text) = syncFiles.take 2 := by
    decide +kernel
  rw [hpaths] at hfilter
  subst hfilter
  exact ⟨_, hfiles, rfl, htext⟩

end Run

end Concordance
