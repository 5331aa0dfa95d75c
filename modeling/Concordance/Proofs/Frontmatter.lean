import Concordance.Proofs.Layout
import Concordance.Proofs.Occurrences
import Concordance.Settings.Reader

set_option autoImplicit false

/-!
# The parts of a document with frontmatter

A trimmed document with frontmatter consists of a fence, settings, a fence on a new line, blanks and
a body. There is at most one way to see a document like that, since the settings hold no such fence
and the body starts with no blank, and splitting finds it (`split_eq_some_iff`). So what is put
between fences is taken out as it was, and what follows them comes back trimmed (`split_fenced`).
-/

namespace Concordance.Frontmatter

open Text

/-- A trimmed document consists of a fence, settings, the first fence that begins a line, blanks,
and a body that begins with none. -/
structure Divides (document settings body : Text) : Prop where
  whole : ∃ gap, trim document = fence ++ settings ++ '\n' :: fence ++ gap ++ body ∧
    ∀ c ∈ gap, isBlank c = true
  settings_unfenced : ¬ '\n' :: fence <:+: settings
  body_start : ∀ c, body.head? = some c → isBlank c = false

variable {document settings body : Text}

/-- The cut that splitting makes. -/
theorem split_cases (document : Text) :
    (∃ settings rest, trim document = fence ++ (settings ++ ('\n' :: fence ++ rest)) ∧
      ¬ '\n' :: fence <:+: settings ∧ split document = (some settings, trimStart rest)) ∨
    split document = (none, trim document) := by
  unfold split
  simp only
  split
  · next settings rest hcut =>
    obtain ⟨inner, hinner, hfirst⟩ := Option.bind_eq_some_iff.mp hcut
    obtain ⟨rfl, hsettings⟩ := of_cutAtText (List.cons_ne_nil _ _) hfirst
    exact Or.inl ⟨settings, rest, after?_eq_some_iff.mp hinner, hsettings, rfl⟩
  · exact Or.inr rfl

/-- A division of a document is the one that the split finds. -/
theorem Divides.split_eq (h : Divides document settings body) :
    split document = (some settings, body) := by
  obtain ⟨gap, hwhole, hgap⟩ := h.whole
  have hinner : after? fence (trim document) =
      some (settings ++ ('\n' :: fence ++ (gap ++ body))) := by
    rw [after?_eq_some_iff, hwhole]
    simp
  have hcut : cutAtText ('\n' :: fence) (settings ++ ('\n' :: fence ++ (gap ++ body))) =
      some (settings, gap ++ body) :=
    cutAtText_of_not_infix (by decide) h.settings_unfenced (gap ++ body)
  have hbody : trimStart (gap ++ body) = body := by
    unfold trimStart trimStartOf
    rw [List.dropWhile_append_of_pos hgap]
    exact trimStartOf_eq_self_of_head? h.body_start
  unfold split
  simp only [hinner, Option.bind_some, hcut, hbody]

/-- A cut at the first fence behind the settings is a division, with the body trimmed at its
start. -/
theorem divides_of_cut {rest : Text}
    (hwhole : trim document = fence ++ (settings ++ ('\n' :: fence ++ rest)))
    (hsettings : ¬ '\n' :: fence <:+: settings) :
    Divides document settings (trimStart rest) := by
  refine ⟨⟨rest.takeWhile isBlank, ?_, fun c hc => List.mem_takeWhile_imp hc⟩, hsettings, ?_⟩
  · have hsplit : rest.takeWhile isBlank ++ trimStart rest = rest :=
      List.takeWhile_append_dropWhile
    rw [List.append_assoc, hsplit, hwhole]
    simp
  · intro c hc
    have hhead := List.head?_dropWhile_not isBlank rest
    have hfirst : (rest.dropWhile isBlank).head? = some c := hc
    rwa [hfirst] at hhead

/-- The split finds settings and a body just if they divide the document. -/
theorem split_eq_some_iff :
    split document = (some settings, body) ↔ Divides document settings body := by
  refine ⟨fun h => ?_, Divides.split_eq⟩
  rcases split_cases document with ⟨settings', rest, hwhole, hsettings, hsplit⟩ | hsplit
  · obtain ⟨hsame, rfl⟩ := Prod.mk.inj (hsplit.symm.trans h)
    obtain rfl := Option.some.inj hsame
    exact divides_of_cut hwhole hsettings
  · cases hsplit.symm.trans h

/-- A document that cannot be divided is a body as a whole. -/
theorem split_of_not_divides (h : ∀ settings body, ¬ Divides document settings body) :
    split document = (none, trim document) := by
  rcases split_cases document with ⟨settings, rest, hwhole, hsettings, -⟩ | hsplit
  · exact absurd (divides_of_cut hwhole hsettings) (h _ _)
  · exact hsplit

/-- What stands between fences is taken out as it is, and what follows is trimmed. -/
theorem split_fenced (hsettings : ¬ '\n' :: fence <:+: settings) (rest : Text) :
    split (fence ++ settings ++ "\n---\n" ++ rest) = (some settings, trim rest) := by
  have hfence : trimEndOf isBlank ('\n' :: fence) = '\n' :: fence := rfl
  have hend :
      trimEnd (fence ++ settings ++ '\n' :: fence) = fence ++ settings ++ '\n' :: fence := by
    rw [trimEnd, trimEndOf_append, hfence, if_neg (List.cons_ne_nil _ _)]
  have hwhole : trim (fence ++ settings ++ "\n---\n" ++ rest) =
      fence ++ (settings ++ ('\n' :: fence ++ trimEnd ('\n' :: rest))) := by
    calc trim (fence ++ settings ++ "\n---\n" ++ rest)
        = trimEnd (trimStart (fence ++ (settings ++ '\n' :: fence ++ '\n' :: rest))) := by
          simp [trim, fence]
      _ = trimEnd ((fence ++ settings ++ '\n' :: fence) ++ '\n' :: rest) := by
          rw [trimStart, trimStartOf_append (s := fence) (List.cons_ne_nil _ _) rfl]
          simp
      _ = (fence ++ settings ++ '\n' :: fence) ++ trimEnd ('\n' :: rest) := by
          rw [trimEnd, trimEndOf_append]
          split
          · next hblank => rw [trimEnd, hblank, List.append_nil]; exact hend
          · rfl
      _ = fence ++ (settings ++ ('\n' :: fence ++ trimEnd ('\n' :: rest))) := by simp
  have hbody : trimStart (trimEnd ('\n' :: rest)) = trim rest := by
    rw [trimStart_trimEnd, trim_cons_of_isBlank rfl]
  rw [← hbody]
  exact (divides_of_cut hwhole hsettings).split_eq

/-- Splitting a document finds its division into settings and body. There is at most one; without
any the trimmed document is all body. What is put between fences comes back. -/
theorem split_is_unique_division (document : Text) :
    (∀ settings body, split document = (some settings, body) ↔ Divides document settings body) ∧
    ((∃! parts : Text × Text, Divides document parts.1 parts.2) ∨
      (∀ settings body, ¬ Divides document settings body) ∧
        split document = (none, trim document)) ∧
    ∀ settings rest, ¬ '\n' :: fence <:+: settings →
      split (fence ++ settings ++ "\n---\n" ++ rest) = (some settings, trim rest) := by
  refine ⟨fun _ _ => split_eq_some_iff, ?_, fun _ rest h => split_fenced h rest⟩
  by_cases hdivides : ∃ settings body, Divides document settings body
  · obtain ⟨settings, body, h⟩ := hdivides
    refine Or.inl ⟨(settings, body), h, fun parts hparts => ?_⟩
    obtain ⟨hsettings, hbody⟩ := Prod.mk.inj (hparts.split_eq.symm.trans h.split_eq)
    exact Prod.ext (Option.some.inj hsettings) hbody
  · have hnone : ∀ settings body, ¬ Divides document settings body :=
      fun settings body h => hdivides ⟨settings, body, h⟩
    exact Or.inr ⟨hnone, split_of_not_divides hnone⟩

/-- Settings that end in dashes, and a document of fences only after them. -/
theorem dashes_before_fence_kept :
    ¬ '\n' :: fence <:+: ("\na: 1\n--" : Text) ∧
      split (fence ++ "\na: 1\n--" ++ "\n---\n" ++ " ---\n---\n") =
        (some ("\na: 1\n--" : Text), ("---\n---" : Text)) := by
  have hsettings : ¬ '\n' :: fence <:+: ("\na: 1\n--" : Text) := by
    rw [← contains_iff]
    decide
  exact ⟨hsettings, (split_is_unique_division []).2.2 "\na: 1\n--" " ---\n---\n" hsettings⟩

end Concordance.Frontmatter
