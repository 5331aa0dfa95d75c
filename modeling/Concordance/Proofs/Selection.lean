import Concordance.Command.Analysis
import Concordance.Proofs.Accounting

set_option autoImplicit false

/-!
# What an analysis looks at

An analysis of a concept looks for its specification and its module on its own. A run on the concept
alone keeps the specifications and modules of the concept and pairs them. Both end at the same pair:
whatever is kept is of one key, so the first specification that is kept takes the first module that
is kept, and these are also what the two searches find.
-/

namespace Concordance

namespace Run

variable {concept : Text} {specs : List Specification} {modules : List SourceModule}

/-- The first specification in scope is the first one of the concept. -/
theorem head?_specsInScope :
    (specsInScope (some concept) specs).head? =
      specs.find? fun s => conceptKey s.name = conceptKey concept :=
  List.head?_filter

/-- The first module in scope is the first one that realises the concept. -/
theorem head?_modulesInScope :
    (modulesInScope (some concept) modules).head? =
      modules.find? fun d => d.realises (conceptKey concept) :=
  List.head?_filter

end Run

namespace Pairing

/-- The pairing of what a run on one concept keeps. -/
def ofConcept (concept : Text) (specs : List Specification) (modules : List SourceModule) :
    Pairing :=
  ofLists (Run.specsInScope (some concept) specs) (Run.modulesInScope (some concept) modules)

/-- Where every module is of the concept, the first specification takes the first of them. -/
theorem head?_assigned {s : Specification} {specs : List Specification}
    {modules : List SourceModule} (h : ∀ d ∈ modules, d.realises (conceptKey s.name) = true) :
    (ofLists (s :: specs) modules).assigned.head? = some (modules.head?.map fun _ => 0) := by
  have hchosen : choose? modules [] (conceptKey s.name) = modules.head?.map fun _ => 0 := by
    cases modules with
    | nil => rfl
    | cons d modules =>
      have hd := h d List.mem_cons_self
      simp [choose?, Text.numberFrom, hd]
  simp [ofLists, assign, hchosen]

/-- The first specification in scope is paired with the first module in scope. -/
theorem head?_ofConcept {concept : Text} {s : Specification} {specs : List Specification}
    (modules : List SourceModule) (hs : (Run.specsInScope (some concept) specs).head? = some s) :
    (ofConcept concept specs modules).assigned.head? =
      some ((Run.modulesInScope (some concept) modules).head?.map fun _ => 0) := by
  obtain ⟨rest, hkept⟩ := List.head?_eq_some_iff.mp hs
  have hkey : conceptKey s.name = conceptKey concept := by
    have hmem : s ∈ Run.specsInScope (some concept) specs := by rw [hkept]; exact List.mem_cons_self
    simpa [Run.specsInScope] using (List.mem_filter.mp hmem).2
  unfold ofConcept
  rw [hkept]
  apply head?_assigned
  intro d hd
  rw [hkey]
  exact (List.mem_filter.mp hd).2

end Pairing

/-- A command ends with an error whose wording starts in the given way. -/
def Outcome.FailsWith (lead : Text) (o : Outcome) : Prop :=
  ∃ e, o.result = .error e ∧ Text.startsWith lead e.message = true

namespace Analysis

variable {concept : Text} {tree : FileTree} {settings : Settings} {specs : Scan Specification}
  {modules : Scan SourceModule}

/-- Both searches end at the first of what a run on the concept keeps. -/
theorem find_eq (hspecs : tree.specifications settings.specDirectory = .ok specs)
    (hmodules : tree.modules settings.implementationDirectory = .ok modules) :
    find concept tree settings =
      (Run.specsInScope (some concept) specs.items).head?.elim (.error (.noSpecification concept))
        fun s =>
          (Run.modulesInScope (some concept) modules.items).head?.elim
            (.error (.noImplementation concept)) fun d => .ok (s, d) := by
  rw [Run.head?_specsInScope, Run.head?_modulesInScope]
  unfold find
  rw [hspecs, hmodules]
  cases hspec : specs.items.find? fun s => conceptKey s.name = conceptKey concept with
  | none => simp [Except.mapError, bind, Except.bind, hspec]
  | some s =>
    cases hmodule : modules.items.find? fun d => d.realises (conceptKey concept) with
    | none => simp [Except.mapError, bind, Except.bind, hspec, hmodule]
    | some d => simp [Except.mapError, bind, Except.bind, hspec, hmodule]

/-- The search for the pair of a concept has three ends, and the pairing shows which one. -/
theorem find_cases (concept : Text)
    (hspecs : tree.specifications settings.specDirectory = .ok specs)
    (hmodules : tree.modules settings.implementationDirectory = .ok modules) :
    (Run.specsInScope (some concept) specs.items = [] ∧
      find concept tree settings = .error (.noSpecification concept)) ∨
    (Run.specsInScope (some concept) specs.items ≠ [] ∧
      (Pairing.ofConcept concept specs.items modules.items).assigned.head? = some none ∧
      find concept tree settings = .error (.noImplementation concept)) ∨
    ∃ s d, (Run.specsInScope (some concept) specs.items).head? = some s ∧
      (Pairing.ofConcept concept specs.items modules.items).assigned.head? = some (some 0) ∧
      (Run.modulesInScope (some concept) modules.items)[0]? = some d ∧
      find concept tree settings = .ok (s, d) := by
  rw [find_eq hspecs hmodules]
  cases hs : (Run.specsInScope (some concept) specs.items).head? with
  | none => exact Or.inl ⟨List.head?_eq_none_iff.mp hs, rfl⟩
  | some s =>
    have hne : Run.specsInScope (some concept) specs.items ≠ [] := by
      intro hnil
      rw [hnil] at hs
      cases hs
    have hgiven := Pairing.head?_ofConcept modules.items hs
    cases hd : (Run.modulesInScope (some concept) modules.items).head? with
    | none =>
      rw [hd] at hgiven
      exact Or.inr (Or.inl ⟨hne, hgiven, rfl⟩)
    | some d =>
      rw [hd] at hgiven
      rw [List.head?_eq_getElem?] at hd
      exact Or.inr (Or.inr ⟨s, d, rfl, hgiven, hd, rfl⟩)

/-- The analysis finds a pair just if it is the first specification in scope with what it is paired
with. -/
theorem find_eq_ok_iff {s : Specification} {d : SourceModule}
    (hspecs : tree.specifications settings.specDirectory = .ok specs)
    (hmodules : tree.modules settings.implementationDirectory = .ok modules) :
    find concept tree settings = .ok (s, d) ↔
      (Run.specsInScope (some concept) specs.items).head? = some s ∧
      ∃ i : Nat,
        (Pairing.ofConcept concept specs.items modules.items).assigned.head? = some (some i) ∧
        (Run.modulesInScope (some concept) modules.items)[i]? = some d := by
  rcases find_cases concept hspecs hmodules with
    ⟨hnil, hfind⟩ | ⟨-, hgiven, hfind⟩ | ⟨s', d', hs, hgiven, hd, hfind⟩
  · rw [hfind, hnil]
    simp
  · rw [hfind, hgiven]
    simp
  · rw [hfind, hs, hgiven, Except.ok.injEq, Prod.mk.injEq, Option.some.injEq]
    simp [hd]

/-- What an analysis of a pair leaves. -/
def outcomeOn (a : Analysis) (color : Bool) (tree : FileTree) (assessor : Assessor Id)
    (s : Specification) (d : SourceModule) : Outcome :=
  (assessor.assessAspect s d a.aspect).run.elim (.failed tree .noService) fun assessment =>
    { tree := tree, stdout := render color s.name a.aspect assessment, result := .ok 0 }

variable {a : Analysis} {around : Surroundings Id} {assessor : Assessor Id} {warning : Text}

/-- Without an assessor nothing is looked for. -/
theorem execute_of_assessor_error {e : ServiceError}
    (hsettings : Command.settings tree a.settingsFile a.overrides = .ok settings)
    (hassessor : Command.assessor around settings a.overrides.apiKey = .error e) :
    (a.execute around tree).run = .failed tree (.service e) := by
  simp [execute, Command.withSettings, hsettings, hassessor]

section Execute

variable (hsettings : Command.settings tree a.settingsFile a.overrides = .ok settings)
  (hassessor : Command.assessor around settings a.overrides.apiKey = .ok (assessor, warning))
include hsettings hassessor

/-- If no pair is found, then the command fails for that reason, behind its warning. -/
theorem execute_of_find_error {e : CommandError} (h : find a.concept tree settings = .error e) :
    (a.execute around tree).run = (Outcome.failed tree e).afterWarning warning := by
  simp [execute, Command.withSettings, hsettings, hassessor, h]

/-- If a pair is found, then the command ends with what the assessor says of it, behind its
warning. -/
theorem execute_of_find_ok {s : Specification} {d : SourceModule}
    (h : find a.concept tree settings = .ok (s, d)) :
    (a.execute around tree).run =
      (a.outcomeOn around.color tree assessor s d).afterWarning warning := by
  cases hanswer : (assessor.assessAspect s d a.aspect).run with
  | none => simp [execute, Command.withSettings, outcomeOn, hsettings, hassessor, h, hanswer]
  | some assessment =>
    simp [execute, Command.withSettings, outcomeOn, hsettings, hassessor, h, hanswer]

/-- If no pair is found, then the command fails with the message of that reason. -/
theorem failsWith_of_find_error {e : CommandError} {lead : Text}
    (h : find a.concept tree settings = .error e) :
    (a.execute around tree).run.FailsWith lead ↔ Text.startsWith lead e.message = true := by
  rw [execute_of_find_error hsettings hassessor h]
  constructor
  · rintro ⟨_, ⟨⟩, hlead⟩
    exact hlead
  · intro hlead
    exact ⟨e, rfl, hlead⟩

/-- Once a pair is found, only the service can be missing. -/
theorem not_failsWith_of_find_ok {s : Specification} {d : SourceModule} {lead : Text}
    (h : find a.concept tree settings = .ok (s, d))
    (hlead : Text.startsWith lead CommandError.noService.message = false) :
    ¬ (a.execute around tree).run.FailsWith lead := by
  rw [execute_of_find_ok hsettings hassessor h]
  rintro ⟨e, he, hmessage⟩
  unfold outcomeOn at he
  cases hanswer : (assessor.assessAspect s d a.aspect).run with
  | none =>
    rw [hanswer] at he
    obtain rfl : CommandError.noService = e := Except.error.inj he
    rw [hlead] at hmessage
    cases hmessage
  | some assessment =>
    rw [hanswer] at he
    cases he

variable (hspecs : tree.specifications settings.specDirectory = .ok specs)
  (hmodules : tree.modules settings.implementationDirectory = .ok modules)
include hspecs hmodules

/-- The command fails for want of a specification just if none is in scope. -/
theorem failsWith_noSpecification_iff :
    (a.execute around tree).run.FailsWith "No specification found" ↔
      Run.specsInScope (some a.concept) specs.items = [] := by
  rcases find_cases a.concept hspecs hmodules with
    ⟨hnil, hfind⟩ | ⟨hne, -, hfind⟩ | ⟨s, d, hs, -, -, hfind⟩
  · rw [failsWith_of_find_error hsettings hassessor hfind]
    exact iff_of_true rfl hnil
  · rw [failsWith_of_find_error hsettings hassessor hfind]
    exact iff_of_false (by rintro ⟨⟩) hne
  · refine iff_of_false (not_failsWith_of_find_ok hsettings hassessor hfind rfl) ?_
    intro hnil
    rw [hnil] at hs
    cases hs

/-- The command fails for want of a module just if a specification is in scope and goes without
one. -/
theorem failsWith_noImplementation_iff :
    (a.execute around tree).run.FailsWith "No implementation found" ↔
      Run.specsInScope (some a.concept) specs.items ≠ [] ∧
      (Pairing.ofConcept a.concept specs.items modules.items).assigned.head? = some none := by
  rcases find_cases a.concept hspecs hmodules with
    ⟨hnil, hfind⟩ | ⟨hne, hgiven, hfind⟩ | ⟨s, d, -, hgiven, -, hfind⟩
  · rw [failsWith_of_find_error hsettings hassessor hfind]
    exact iff_of_false (by rintro ⟨⟩) fun h => h.1 hnil
  · rw [failsWith_of_find_error hsettings hassessor hfind]
    exact iff_of_true rfl ⟨hne, hgiven⟩
  · refine iff_of_false (not_failsWith_of_find_ok hsettings hassessor hfind rfl) ?_
    rw [hgiven]
    simp

end Execute

/-- An analysis and a run on the same concept agree on the pair that the concept names. Where the
settings load and both directories can be read, the search of the analysis ends at a specification
and a module just if that specification is the first one that the run keeps and takes that module
in the pairing of what the run keeps. If an assessor, be it a disabled one, can be set up from the
settings, the analysis then asks it about these two; it fails for want of a specification just if
the run keeps none, and for want of an implementation just if the first specification that the run
keeps goes away empty. If none can be set up, the analysis fails for that reason, whatever there
is. -/
theorem analysis_finds_first_pair (a : Analysis) (around : Surroundings Id) (tree : FileTree)
    (settings : Settings) (specs : Scan Specification) (modules : Scan SourceModule)
    (hsettings : Command.settings tree a.settingsFile a.overrides = .ok settings)
    (hspecs : tree.specifications settings.specDirectory = .ok specs)
    (hmodules : tree.modules settings.implementationDirectory = .ok modules) :
    (∀ s d, find a.concept tree settings = .ok (s, d) ↔
      (Run.specsInScope (some a.concept) specs.items).head? = some s ∧
      ∃ i : Nat,
        (Pairing.ofConcept a.concept specs.items modules.items).assigned.head? = some (some i) ∧
        (Run.modulesInScope (some a.concept) modules.items)[i]? = some d) ∧
    (∀ assessor warning,
      Command.assessor around settings a.overrides.apiKey = .ok (assessor, warning) →
      (∀ s d, find a.concept tree settings = .ok (s, d) →
        (a.execute around tree).run =
          (a.outcomeOn around.color tree assessor s d).afterWarning warning) ∧
      ((a.execute around tree).run.FailsWith "No specification found" ↔
        Run.specsInScope (some a.concept) specs.items = []) ∧
      ((a.execute around tree).run.FailsWith "No implementation found" ↔
        Run.specsInScope (some a.concept) specs.items ≠ [] ∧
        (Pairing.ofConcept a.concept specs.items modules.items).assigned.head? = some none)) ∧
    ∀ e, Command.assessor around settings a.overrides.apiKey = .error e →
      (a.execute around tree).run = .failed tree (.service e) := by
  refine ⟨fun s d => find_eq_ok_iff hspecs hmodules, ?_, ?_⟩
  · intro assessor warning hassessor
    exact ⟨fun s d => execute_of_find_ok hsettings hassessor,
      failsWith_noSpecification_iff hsettings hassessor hspecs hmodules,
      failsWith_noImplementation_iff hsettings hassessor hspecs hmodules⟩
  · intro e hassessor
    exact execute_of_assessor_error hsettings hassessor

/-- An analysis in the small project. -/
def ofSmallProject (concept : Text) : Analysis :=
  { concept := concept, aspect := .queries, overrides := { assess := true, apiKey := some "key" } }

/-- The settings of the small project. -/
def smallSettings : Settings := { root := "./.", assessment := { enabled := true } }

/-- Surroundings whose service has one answer. -/
def oneAnswer : Surroundings Id :=
  { apiKey := none, complete := fun _ _ => some ("Fine." : Text), time := [], color := false }

/-- In the small project the analysis fails for want of either, and finds the pair of the team. -/
theorem small_project_pairs_agree :
    (execute (ofSmallProject "Mail") oneAnswer Run.smallProject).run.FailsWith
      "No specification found" ∧
    (execute (ofSmallProject "user") oneAnswer Run.smallProject).run.FailsWith
      "No implementation found" ∧
    ∃ s d, find "TEAMconcept" Run.smallProject smallSettings = .ok (s, d) ∧
      s.path = "specs/Team.concept" ∧ d.path = "concepts/TeamConcept.ts" := by
  have hsettings : ∀ concept,
      Command.settings Run.smallProject (ofSmallProject concept).settingsFile
        (ofSmallProject concept).overrides = .ok smallSettings := by
    intro concept
    have hsame : Command.settings Run.smallProject none { assess := true, apiKey := some "key" } =
        .ok smallSettings := by
      decide +kernel
    exact hsame
  have hloaded : ((Run.smallProject.specifications smallSettings.specDirectory).toOption.bind
      fun specs => (Run.smallProject.modules smallSettings.implementationDirectory).toOption.map
        fun modules => decide (
          Run.specsInScope (some ("Mail" : Text)) specs.items = [] ∧
          Run.specsInScope (some ("user" : Text)) specs.items ≠ [] ∧
          (Pairing.ofConcept "user" specs.items modules.items).assigned.head? = some none ∧
          (Run.specsInScope (some ("TEAMconcept" : Text)) specs.items).head?.map
            Specification.path = some ("specs/Team.concept" : Text) ∧
          (Pairing.ofConcept "TEAMconcept" specs.items modules.items).assigned.head? =
            some (some 0) ∧
          (Run.modulesInScope (some ("TEAMconcept" : Text)) modules.items)[0]?.map
            SourceModule.path = some ("concepts/TeamConcept.ts" : Text))) = some true := by
    simp only [FileTree.specifications, FileTree.modules, FileTree.list_eq_insertionSort]
    decide +kernel
  obtain ⟨specs, hspecs, hloaded⟩ := Option.bind_eq_some_iff.mp hloaded
  obtain ⟨modules, hmodules, hchecked⟩ := Option.map_eq_some_iff.mp hloaded
  obtain ⟨hmail, huser, hempty, hspec, hgiven, hmodule⟩ := of_decide_eq_true hchecked
  obtain ⟨s, hs, hspath⟩ := Option.map_eq_some_iff.mp hspec
  obtain ⟨d, hd, hdpath⟩ := Option.map_eq_some_iff.mp hmodule
  have hagree := fun concept => analysis_finds_first_pair (ofSmallProject concept) oneAnswer
    Run.smallProject smallSettings specs modules (hsettings concept) (ok_of_toOption hspecs)
    (ok_of_toOption hmodules)
  exact ⟨((hagree "Mail").2.1 _ _ rfl).2.1.mpr hmail,
    ((hagree "user").2.1 _ _ rfl).2.2.mpr ⟨huser, hempty⟩, s, d,
    ((hagree "TEAMconcept").1 s d).mpr ⟨hs, 0, hgiven, hd⟩, hspath, hdpath⟩

/-- The small project with a settings file whose endpoint starts like the address of a web service
and does so no more without the slashes at its end. -/
def refusedEndpoint : FileTree :=
  Run.smallProject
    |>.put ["work", ".concept-lint"] .directory
    |>.put ["work", ".concept-lint", "config.md"]
      (.file (.text "---\nassessment:\n  endpoint: https://\n---\n"))

/-- The settings of that project. -/
def refusedSettings : Settings :=
  { smallSettings with assessment := { enabled := true, endpoint := "https://" } }

/-- Settings and directories load and no specification of the concept is there to be kept, yet the
analysis fails for another reason: the endpoint is refused before anything is looked for. -/
theorem refused_endpoint_comes_first :
    ∃ specs modules,
      Command.settings refusedEndpoint none (ofSmallProject "Mail").overrides =
        .ok refusedSettings ∧
      refusedEndpoint.specifications refusedSettings.specDirectory = .ok specs ∧
      refusedEndpoint.modules refusedSettings.implementationDirectory = .ok modules ∧
      Run.specsInScope (some ("Mail" : Text)) specs.items = [] ∧
      ¬ (execute (ofSmallProject "Mail") oneAnswer refusedEndpoint).run.FailsWith
        "No specification found" ∧
      (execute (ofSmallProject "Mail") oneAnswer refusedEndpoint).run.FailsWith
        "Invalid endpoint URL: https:" := by
  have hsettings : Command.settings refusedEndpoint none (ofSmallProject "Mail").overrides =
      .ok refusedSettings := by
    decide +kernel
  have hassessor : Command.assessor oneAnswer refusedSettings (some "key") =
      .error (.invalidEndpoint "https:") := rfl
  have hloaded : ((refusedEndpoint.specifications refusedSettings.specDirectory).toOption.bind
      fun specs => (refusedEndpoint.modules refusedSettings.implementationDirectory).toOption.map
        fun _ => decide (Run.specsInScope (some ("Mail" : Text)) specs.items = [])) =
      some true := by
    simp only [FileTree.specifications, FileTree.modules, FileTree.list_eq_insertionSort]
    decide +kernel
  obtain ⟨specs, hspecs, hloaded⟩ := Option.bind_eq_some_iff.mp hloaded
  obtain ⟨modules, hmodules, hnone⟩ := Option.map_eq_some_iff.mp hloaded
  have houtcome : (execute (ofSmallProject "Mail") oneAnswer refusedEndpoint).run =
      .failed refusedEndpoint (.service (.invalidEndpoint "https:")) :=
    execute_of_assessor_error hsettings hassessor
  refine ⟨specs, modules, hsettings, ok_of_toOption hspecs, ok_of_toOption hmodules,
    of_decide_eq_true hnone, ?_, ?_⟩
  · rw [houtcome]
    rintro ⟨e, ⟨⟩, hlead⟩
    exact absurd hlead (by decide)
  · rw [houtcome]
    exact ⟨_, rfl, by decide⟩

end Analysis

end Concordance
