import Concordance.Proofs.Layout
import Concordance.Proofs.Listing
import Concordance.Source.Convention

set_option autoImplicit false

/-!
# Words and members at their boundaries

Two searches decide what a method is taken to do. One divides a text into its runs of alphanumerics
and underscores, and looks for a word among them; the other looks for the text of a member, takes
its occurrences without overlap, and asks what follows each. Both are described by occurrences with
nothing of a class of characters at one end or at both (`OccursBetween`). The runs of a text are
just what occurs between characters of no run (`mem_splitOnP_iff`). An occurrence of a member can be
lost to an earlier one that runs into it, but then the character before it is one of the member's
own (`length_le_of_prefix`), so none is lost that another character precedes.
-/

namespace Concordance

namespace Text

variable {inside before after : Char → Bool} {word front rest t : Text} {c : Char}

/-! ## Occurrences between classes of characters -/

/-- A text occurs in another one, with no character of the one class right before it and none of the
other class right after it. -/
def OccursBetween (before after : Char → Bool) (needle t : Text) : Prop :=
  ∃ front rest, t = front ++ (needle ++ rest) ∧ front.getLast?.any before = false ∧
    rest.head?.any after = false

/-- An occurrence stays one behind a character that may stand before it. -/
theorem OccursBetween.append_cons (h : OccursBetween before after word t) (hc : before c = false)
    (s : Text) : OccursBetween before after word (s ++ c :: t) := by
  obtain ⟨front, rest, rfl, hfront, hrest⟩ := h
  refine ⟨s ++ c :: front, rest, by simp, ?_, hrest⟩
  rw [List.getLast?_append_of_ne_nil s (List.cons_ne_nil c front), List.getLast?_cons,
    Option.any_some]
  cases hlast : front.getLast? with
  | none => exact hc
  | some d =>
    rw [hlast] at hfront
    exact hfront

/-! ## Runs of characters -/

/-- A run of characters of a class is a text of them that no further one touches. -/
theorem occursBetween_of_mem_splitOnP (h : word ∈ t.splitOnP fun c => !inside c) :
    word.all inside = true ∧ OccursBetween inside inside word t := by
  -- A run is the first one, or one of the shorter text behind the first break.
  induction hlength : t.length using Nat.strong_induction_on generalizing t with
  | _ n ih =>
    cases hcut : cutWhere (fun c => !inside c) t with
    | none =>
      have hall := cutWhere_eq_none_iff.mp hcut
      rw [List.splitOnP_eq_singleton hall, List.mem_singleton] at h
      subst h
      exact ⟨by simpa using hall, [], [], by simp, rfl, rfl⟩
    | some pieces =>
      obtain ⟨first, more⟩ := pieces
      obtain ⟨c, hc, rfl, hfirst⟩ := of_cutWhere hcut
      have hinside : inside c = false := by simpa using hc
      rw [List.splitOnP_append_cons_of_forall_mem hfirst c hc] at h
      rcases List.mem_cons.mp h with rfl | hmem
      · exact ⟨by simpa using hfirst, [], c :: more, rfl, rfl, hinside⟩
      · have hshorter : more.length < n := by
          rw [← hlength, List.length_append, List.length_cons]
          omega
        obtain ⟨hall, hoccurs⟩ := ih more.length hshorter hmem rfl
        exact ⟨hall, hoccurs.append_cons hinside first⟩

/-- A text of characters of a class that no further one touches is a run of them. -/
theorem mem_splitOnP_of_occursBetween (hword : word.all inside = true)
    (h : OccursBetween inside inside word t) : word ∈ t.splitOnP fun c => !inside c := by
  obtain ⟨front, rest, rfl, hfront, hrest⟩ := h
  have hall : ∀ c ∈ word, (!inside c) = false := by simpa using hword
  have hhere : word ∈ (word ++ rest).splitOnP fun c => !inside c := by
    cases rest with
    | nil => rw [List.append_nil, List.splitOnP_eq_singleton hall]; exact List.mem_cons_self
    | cons c rest =>
      have hc : (!inside c) = true := by simpa using hrest
      rw [List.splitOnP_append_cons_of_forall_mem hall c hc]
      exact List.mem_cons_self
  rcases List.eq_nil_or_concat front with rfl | ⟨front, c, rfl⟩
  · exact hhere
  · have hc : (!inside c) = true := by simpa using hfront
    rw [List.concat_eq_append, List.append_assoc, List.singleton_append,
      List.splitOnP_append_cons front (word ++ rest) hc]
    exact List.mem_append_right _ hhere

/-- The runs of characters of a class are the texts of such characters that no such character
touches. -/
theorem mem_splitOnP_iff :
    (word ∈ t.splitOnP fun c => !inside c) ↔
      word.all inside = true ∧ OccursBetween inside inside word t :=
  ⟨occursBetween_of_mem_splitOnP, fun h => mem_splitOnP_of_occursBetween h.1 h.2⟩

end Text

open Text

/-- The characters of the words that a search for a word compares. -/
def isTokenChar (c : Char) : Bool := isAlphanumeric c || c = '_'

/-- The search for a word finds it just where no character of words touches it. -/
theorem containsWord_iff {word t : Text} (h : word.all isTokenChar = true) :
    containsWord word t = true ↔ OccursBetween isTokenChar isTokenChar word t := by
  have hmem : containsWord word t = true ↔ word ∈ t.splitOnP fun c => !isTokenChar c := by
    simp [containsWord, isTokenChar]
  rw [hmem, mem_splitOnP_iff, and_iff_right h]

/-! ## Members -/

section Members

variable {inside : Char → Bool} {member front rest t : Text} {skip : Nat}

/-- A member ends where no character of names follows. -/
theorem endsMember_eq (t : Text) : endsMember t = !t.head?.any continuesMember := by
  cases t <;> rfl

/-- What the search finds is an occurrence that no character of names follows. -/
theorem occursBetween_of_mentionsMemberFrom (h : mentionsMemberFrom member skip t = true) :
    OccursBetween (fun _ => false) continuesMember member t := by
  induction t generalizing skip with
  | nil => cases skip <;> cases h
  | cons c t ih =>
    have hlater : ∀ {skip}, mentionsMemberFrom member skip t = true →
        OccursBetween (fun _ => false) continuesMember member (c :: t) :=
      fun h => (ih h).append_cons rfl []
    cases skip with
    | succ skip => exact hlater h
    | zero =>
      rw [mentionsMemberFrom] at h
      split at h
      · next rest hrest =>
        rcases Bool.or_eq_true_iff.mp h with hends | hmore
        · rw [endsMember_eq, Bool.not_eq_true'] at hends
          have ht : c :: t = member ++ rest := after?_eq_some_iff.mp hrest
          exact ⟨[], rest, ht, rfl, hends⟩
        · exact hlater hmore
      · exact hlater h

/-- An occurrence that begins before another one ends before it, too, if the character in between is
none of its own. -/
theorem length_le_of_prefix (hmember : ∀ c ∈ member, inside c = true) (hne : front ≠ [])
    (hfront : front.getLast?.any inside = false) (h : member <+: front ++ t) :
    member.length ≤ front.length := by
  by_contra hlonger
  have hlead : front <+: member :=
    List.prefix_of_prefix_length_le (List.prefix_append front t) h (by omega)
  have hlast := hmember _ (hlead.mem (List.getLast_mem hne))
  rw [List.getLast?_eq_some_getLast hne, Option.any_some, hlast] at hfront
  cases hfront

/-- An occurrence that no character of the member precedes and none of names follows is found, if
the occurrence taken last does not reach into it. -/
theorem mentionsMemberFrom_append (hne : member ≠ []) (hmember : ∀ c ∈ member, inside c = true)
    (hfront : front.getLast?.any inside = false) (hrest : rest.head?.any continuesMember = false)
    (hskip : skip ≤ front.length) :
    mentionsMemberFrom member skip (front ++ (member ++ rest)) = true := by
  induction front generalizing skip with
  | nil =>
    obtain rfl : skip = 0 := by simpa using hskip
    obtain ⟨c, tail, rfl⟩ := List.exists_cons_of_ne_nil hne
    have hafter : after? (c :: tail) (c :: (tail ++ rest)) = some rest := after?_eq_some_iff.mpr rfl
    rw [List.nil_append, List.cons_append, mentionsMemberFrom, hafter]
    simp [endsMember_eq, hrest]
  | cons d front ih =>
    have hlater : front.getLast?.any inside = false := by
      rw [List.getLast?_cons, Option.any_some] at hfront
      cases hlast : front.getLast? with
      | none => rfl
      | some c =>
        rw [hlast] at hfront
        exact hfront
    rw [List.cons_append]
    cases skip with
    | succ skip => exact ih hlater (Nat.le_of_succ_le_succ hskip)
    | zero =>
      rw [mentionsMemberFrom]
      split
      · next found hfound =>
        have hlead : member <+: (d :: front) ++ (member ++ rest) :=
          ⟨found, (after?_eq_some_iff.mp hfound).symm⟩
        have hlength := length_le_of_prefix hmember (List.cons_ne_nil d front) hfront hlead
        rw [List.length_cons] at hlength
        rw [ih hlater (by omega), Bool.or_true]
      · exact ih hlater (Nat.zero_le _)

end Members

/-- The characters of a member as a method names it. -/
def isMemberChar (c : Char) : Bool := continuesMember c || c = '.'

/-- The access to a field consists of characters of names and a point. -/
theorem isMemberChar_of_mem {field : Text} (h : field.all continuesMember = true) :
    ∀ c ∈ memberAccess field, isMemberChar c = true := by
  have hthis : ("this." : Text).all isMemberChar = true := by decide
  intro c hc
  rcases List.mem_append.mp hc with hmem | hmem
  · exact List.all_eq_true.mp hthis c hmem
  · rw [isMemberChar, List.all_eq_true.mp h c hmem, Bool.true_or]

/-- Storage is touched just if a method mentions the handle or one of the fields that hold
collections. -/
theorem SourceModule.touchesPersistence_iff {m : SourceModule} {d : Method} :
    m.touchesPersistence d = true ↔
      ∃ field ∈ persistenceHandle :: m.persistenceFields,
        mentionsMember (memberAccess field) d.body = true := by
  rw [touchesPersistence, Bool.or_eq_true, List.any_eq_true, List.exists_mem_cons_iff]

/-- A word is found just where no alphanumeric and no underscore touches it. Storage is found to be
reached wherever the database or a collection is named, with no further character of names behind it
and nothing before it that could belong to a member; and where storage is found to be reached, one
of them is named, with no further character of names behind it. -/
theorem words_and_members_found_at_boundaries :
    (∀ word t : Text, word.all isTokenChar = true →
      (containsWord word t = true ↔ OccursBetween isTokenChar isTokenChar word t)) ∧
    ∀ (m : SourceModule) (d : Method),
      (∀ field ∈ persistenceHandle :: m.persistenceFields, field.all continuesMember = true →
        OccursBetween isMemberChar continuesMember (memberAccess field) d.body →
          m.touchesPersistence d = true) ∧
      (m.touchesPersistence d = true → ∃ field ∈ persistenceHandle :: m.persistenceFields,
        OccursBetween (fun _ => false) continuesMember (memberAccess field) d.body) := by
  refine ⟨fun word t hword => containsWord_iff hword, fun m d => ⟨?_, fun h => ?_⟩⟩
  · rintro field hfield hchars ⟨front, rest, hbody, hfront, hrest⟩
    refine SourceModule.touchesPersistence_iff.mpr ⟨field, hfield, ?_⟩
    rw [mentionsMember, hbody]
    exact mentionsMemberFrom_append (List.cons_ne_nil _ _) (isMemberChar_of_mem hchars) hfront hrest
      (Nat.zero_le _)
  · obtain ⟨field, hfield, hmention⟩ := SourceModule.touchesPersistence_iff.mp h
    exact ⟨field, hfield, occursBetween_of_mentionsMemberFrom hmention⟩

/-- A word that also stands in longer ones, and a collection whose name ends like its own mention
begins: the search takes the first mention, which goes on with another name, and loses the second
one to it. -/
theorem found_behind_longer_names :
    containsWord "error" "_error errors.error" = true ∧
      ({ (default : SourceModule) with persistenceFields := ["at"] }).touchesPersistence
        { (default : Method) with body := "this.athis.at = this.at" } = true := by
  have hword : OccursBetween isTokenChar isTokenChar "error" "_error errors.error" :=
    ⟨"_error errors.", "", by decide, by decide, by decide⟩
  have hmember : OccursBetween isMemberChar continuesMember (memberAccess "at")
      "this.athis.at = this.at" :=
    ⟨"this.athis.at = ", "", by decide, by decide, by decide⟩
  exact ⟨(words_and_members_found_at_boundaries.1 "error" _ (by decide)).mpr hword,
    (words_and_members_found_at_boundaries.2 _ _).1 "at" (by decide) (by decide) hmember⟩

end Concordance
