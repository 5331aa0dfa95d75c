import Concordance.Proofs.Aligned
import Mathlib.Data.List.Nodup

set_option autoImplicit false

/-!
# Undeclared actions

A method without a mark that no action of the specification is named like should be reported at its
line: as an action that is not specified or as a query without its mark. The step for actions passes
a method over if it is named for a query, and counts on the step for queries to report it. That step
reports the method only if it is the one looked up for the query. A method that another one stands
in front of is looked up for no query (`Shadowed`); then nothing is reported at its line at all.
-/

namespace Concordance.Battery

/-- A method is named for queries, is no reader by its name, and is looked up for none of them. -/
structure Shadowed (s : Specification) (m : SourceModule) (d : Method) : Prop where
  unshaped : isQueryShaped d.name = false
  named : ∃ q ∈ s.queries, unmarked q.name = d.name
  passedOver : ∀ q ∈ s.queries, ¬ Implements m q d

variable {s : Specification} {m : SourceModule} {d : Method}

/-- Methods on different lines are told apart by their lines. -/
theorem eq_of_line_eq (hlines : (m.methods.map Method.line).Nodup) {e : Method}
    (hd : d ∈ m.methods) (he : e ∈ m.methods) (h : e.line = d.line) : e = d :=
  List.inj_on_of_nodup_map hlines he hd h

/-- The place of a name is that of a method with it, or is the whole module. -/
theorem placeNamed_cases (m : SourceModule) (name : Text) :
    (∃ e ∈ m.methods, e.name = name ∧ placeNamed m name = placeOf m e) ∨
      placeNamed m name = { file := m.path } := by
  unfold placeNamed SourceModule.method?
  cases he : m.methods.find? (fun e => e.name = name) with
  | none => exact Or.inr rfl
  | some e =>
    have hname : e.name = name := by simpa using List.find?_some he
    exact Or.inl ⟨e, List.mem_of_find?_eq_some he, hname, rfl⟩

/-- A defect at the line of a method is under a name that the specification declares just if it
declares the method. -/
theorem declares_eq_of_methodIssue_line {e : Method} {category : Category} {x : ConventionDefect}
    (hlines : (m.methods.map Method.line).Nodup) (hd : d ∈ m.methods)
    (hline : (methodIssue m category x e.name).location.line = some d.line) :
    declares s e.name = declares s d.name := by
  have hplace : (placeNamed m e.name).line = some d.line := hline
  rcases placeNamed_cases m e.name with ⟨f, hf, hname, hloc⟩ | hloc
  · rw [hloc] at hplace
    have hsame := eq_of_line_eq hlines hd hf (Option.some.inj hplace)
    rw [← hsame, hname]
  · rw [hloc] at hplace
    cases hplace

/-- Nothing is found at the line of a method that is shadowed. -/
theorem Shadowed.line_ne (h : Shadowed s m d) (hlines : (m.methods.map Method.line).Nodup)
    (hd : d ∈ m.methods) (hundeclared : ∀ a ∈ s.actions, a.name ≠ d.name) {i : Issue}
    (hi : Finds s m i) : i.location.line ≠ some d.line := by
  have hspecified : isSpecified s d = true := isSpecified_eq_true_iff.mpr (Or.inr h.named)
  have haction : ∀ a ∈ s.actions, ∀ e, m.actions.find? (fun e => e.name = a.name) = some e →
      e.line ≠ d.line := by
    intro a ha e he hline
    have himplements := find?_actions_eq_some_iff.mp he
    have hsame := eq_of_line_eq hlines hd himplements.mem hline
    exact hundeclared a ha (by rw [← hsame, himplements.holds.2])
  have hquery : ∀ q ∈ s.queries, ∀ e, implementing? m q = some e → e.line ≠ d.line := by
    intro q hq e he hline
    have himplements := implementing?_eq_some_iff.mp he
    rw [eq_of_line_eq hlines hd himplements.mem hline] at himplements
    exact h.passedOver q hq himplements
  have hmember : ∀ e ∈ m.actions, some e.line = some d.line → e = d := by
    intro e he hline
    exact eq_of_line_eq hlines hd (SourceModule.mem_actions_iff.mp he).1 (Option.some.inj hline)
  intro hline
  cases hi with
  | specificationDefect _ => cases hline
  | dependency _ => cases hline
  | failureUnhandled _ _ hdeclared _ =>
    rw [declares_eq_of_methodIssue_line hlines hd hline, declares_of_isSpecified hspecified]
      at hdeclared
    cases hdeclared
  | syncPersistence _ _ hdeclared _ _ =>
    rw [declares_eq_of_methodIssue_line hlines hd hline, declares_of_isSpecified hspecified]
      at hdeclared
    cases hdeclared
  | missingAction _ _ => cases hline
  | noErrorOutcome ha he _ => exact haction _ ha _ he (Option.some.inj hline)
  | notAsync ha he _ _ => exact haction _ ha _ he (Option.some.inj hline)
  | unspecifiedAction he hnot =>
    rw [hmember _ he hline, hspecified] at hnot
    cases hnot
  | missingQuery _ _ => cases hline
  | notSequence hq he _ => exact hquery _ hq _ he (Option.some.inj hline)
  | unmarkedQuery hq he _ _ => exact hquery _ hq _ he (Option.some.inj hline)
  | unmarkedReader he hshape =>
    rw [hmember _ he hline, h.unshaped] at hshape
    cases hshape
  | noType _ => cases hline
  | wrongType _ _ => cases hline

/-- A method that is not shadowed is found to be unspecified or to lack its mark. -/
theorem finds_of_not_shadowed (hmarks : MarkedByName m) (hd : d ∈ m.methods)
    (hquery : d.isQuery = false) (hundeclared : ∀ a ∈ s.actions, a.name ≠ d.name)
    (h : ¬ Shadowed s m d) :
    Finds s m (unspecifiedAction m d) ∨ Finds s m (namingError m d) := by
  have haction : d ∈ m.actions := SourceModule.mem_actions_iff.mpr ⟨hd, hquery⟩
  cases hshape : isQueryShaped d.name with
  | true => exact Or.inr (.unmarkedReader haction hshape)
  | false =>
    by_cases hnamed : ∃ q ∈ s.queries, unmarked q.name = d.name
    · -- Not shadowed, it is looked up for one of the queries, which then lacks its mark.
      have hlooked : ∃ q ∈ s.queries, Implements m q d := by
        by_contra hnone
        push Not at hnone
        exact h ⟨hshape, hnamed, hnone⟩
      obtain ⟨q, hq, himplements⟩ := hlooked
      have hmark : isQueryName d.name = false := (hmarks d hd).symm.trans hquery
      exact Or.inr
        (.unmarkedQuery hq (implementing?_eq_some_iff.mpr himplements) hmark hshape)
    · have hspecified : isSpecified s d = false := by
        rw [← Bool.not_eq_true, isSpecified_eq_true_iff]
        rintro (⟨a, ha, hname⟩ | hquery)
        · exact hundeclared a ha hname
        · exact hnamed hquery
      exact Or.inl (.unspecifiedAction haction hspecified)

/-- A method without a mark that no action is named like is reported at its line, as an unspecified
action or as a query without its mark, just if it is not shadowed; and if it is shadowed, nothing is
reported at its line. -/
theorem undeclared_action_reported_iff_not_shadowed (s : Specification) (m : SourceModule)
    (hmarks : MarkedByName m) (hlines : (m.methods.map Method.line).Nodup) (d : Method)
    (hd : d ∈ m.methods) (hquery : d.isQuery = false)
    (hundeclared : ∀ a ∈ s.actions, a.name ≠ d.name) :
    ((∃ i ∈ compare s m, i.location = placeOf m d ∧
        (i = unspecifiedAction m d ∨ i = namingError m d)) ↔ ¬ Shadowed s m d) ∧
      (Shadowed s m d → ∀ i ∈ compare s m, i.location.line ≠ some d.line) := by
  have hsilent : Shadowed s m d → ∀ i ∈ compare s m, i.location.line ≠ some d.line :=
    fun h i hi => h.line_ne hlines hd hundeclared (mem_compare_iff.mp hi)
  refine ⟨⟨?_, ?_⟩, hsilent⟩
  · rintro ⟨i, hi, hloc, -⟩ hshadowed
    exact hsilent hshadowed i hi (by rw [hloc]; rfl)
  · intro h
    rcases finds_of_not_shadowed hmarks hd hquery hundeclared h with hi | hi
    · exact ⟨_, mem_compare_iff.mpr hi, rfl, Or.inl rfl⟩
    · exact ⟨_, mem_compare_iff.mpr hi, rfl, Or.inr rfl⟩

/-- A method that writes to storage, under the name of a query but for the mark. -/
def membersMethod : Method :=
  { (default : Method) with name := "members", body := "this.db.clear();", line := 11 }

/-- A method that no specification asks for. -/
def archiveMethod : Method :=
  { (default : Method) with name := "archive", body := "this.db.clear();", line := 15 }

/-- The class of a team with a second method for its query. -/
def crowdedModule : SourceModule :=
  { teamModule with methods := teamModule.methods ++ [membersMethod] }

/-- The class of a team with an action of its own. -/
def archivingModule : SourceModule :=
  { crowdedModule with methods := crowdedModule.methods ++ [archiveMethod] }

/-- The module of a team has one more action, archive, and the issue about it stands at its line. -/
theorem archive_reported :
    MarkedByName archivingModule ∧ (archivingModule.methods.map Method.line).Nodup ∧
      archiveMethod ∈ archivingModule.methods ∧ archiveMethod.isQuery = false ∧
      (∀ a ∈ teamSpecification.actions, a.name ≠ archiveMethod.name) ∧
      ∃ i ∈ compare teamSpecification archivingModule,
        i.location = placeOf archivingModule archiveMethod ∧
          (i = unspecifiedAction archivingModule archiveMethod ∨
            i = namingError archivingModule archiveMethod) := by
  have hmarks : MarkedByName archivingModule := by decide +kernel
  have hlines : (archivingModule.methods.map Method.line).Nodup := by decide
  have hd : archiveMethod ∈ archivingModule.methods := by decide +kernel
  have hundeclared : ∀ a ∈ teamSpecification.actions, a.name ≠ archiveMethod.name := by
    decide +kernel
  have hunnamed : ¬ ∃ q ∈ teamSpecification.queries, unmarked q.name = archiveMethod.name := by
    decide +kernel
  have hreported := (undeclared_action_reported_iff_not_shadowed teamSpecification archivingModule
    hmarks hlines archiveMethod hd rfl hundeclared).1.mpr fun h => hunnamed h.named
  exact ⟨hmarks, hlines, hd, rfl, hundeclared, hreported⟩

/-- The second method for a query is not reported, although no action is named like it. -/
theorem second_query_method_escapes :
    MarkedByName crowdedModule ∧ (crowdedModule.methods.map Method.name).Nodup ∧
      (crowdedModule.methods.map Method.line).Nodup ∧ membersMethod ∈ crowdedModule.methods ∧
      membersMethod.isQuery = false ∧
      (∀ a ∈ teamSpecification.actions, a.name ≠ membersMethod.name) ∧
      ¬ ∃ i ∈ compare teamSpecification crowdedModule,
        i.location.line = some membersMethod.line := by
  decide +kernel

end Concordance.Battery
