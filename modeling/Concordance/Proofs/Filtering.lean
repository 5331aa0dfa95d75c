import Concordance.Proofs.ClassLayout
import Concordance.Proofs.FileChanges
import Concordance.Proofs.Printing
import Concordance.Proofs.Review

set_option autoImplicit false

/-!
# Looking at one concept only

A run may look at one concept only. It then leaves other specifications and modules aside before it
pairs them, so that positions change and competitors are gone. The pairing is therefore restated
without positions: the specifications in order take modules away from those that are left (`serve`).
In this form, leaving aside commutes with serving, as long as no module of the concept could go to a
specification of another one. The run on one concept then selects reports from the run on all. It
also builds no search patterns for other concepts, and so does not note where that fails: a project
with a name that is too long for a pattern shows the difference.
-/

namespace Concordance.Run

/-! ## Serving without positions -/

/-- The subject of a specification that takes the first of its modules from those that are left. -/
def served (left : List SourceModule) (s : Specification) : Subject :=
  match left.find? fun d => d.realises (conceptKey s.name) with
  | some d => .pair s d
  | none => .specification s

/-- The subjects of specifications that take modules away in order, and of what they leave. -/
def serve : (left : List SourceModule) → List Specification → List Subject
  | left, [] => left.map .implementation
  | left, s :: rest =>
    served left s :: serve (left.eraseP fun d => d.realises (conceptKey s.name)) rest

/-- The modules that are not taken. -/
def leftOf (modules : List SourceModule) (taken : List Nat) : List SourceModule :=
  ((Text.numberFrom 0 modules).filter fun m => !decide (m.1 ∈ taken)).map Prod.snd

variable {modules : List SourceModule} {taken : List Nat} {s : Specification}

/-- A search among the modules that are left is one among all that passes over the taken ones. -/
theorem find?_leftOf (p : SourceModule → Bool) :
    (leftOf modules taken).find? p =
      ((Text.numberFrom 0 modules).find? fun m => !decide (m.1 ∈ taken) && p m.2).map Prod.snd := by
  unfold leftOf
  rw [List.find?_map, List.find?_filter]
  congr 2
  funext m
  simp

/-- The subject of a specification is the one that the modules left serve it with. -/
theorem subjectOf_choose? :
    subjectOf modules s (Pairing.choose? modules taken (conceptKey s.name)) =
      served (leftOf modules taken) s := by
  have hmodule : (Pairing.choose? modules taken (conceptKey s.name)).bind (fun i => modules[i]?) =
      (leftOf modules taken).find? fun d => d.realises (conceptKey s.name) := by
    rw [find?_leftOf]
    unfold Pairing.choose?
    cases hfind : (Text.numberFrom 0 modules).find? fun m =>
        !decide (m.1 ∈ taken) && m.2.realises (conceptKey s.name) with
    | none => rfl
    | some m => exact Text.mem_numberFrom_zero.mp (List.mem_of_find?_eq_some hfind)
  unfold subjectOf served
  cases hfound : (leftOf modules taken).find? fun d => d.realises (conceptKey s.name) with
  | none => simp only [hmodule.trans hfound]
  | some d => simp only [hmodule.trans hfound]

/-- No position comes twice in a numbering. -/
theorem nodup_fst_numberFrom : ((Text.numberFrom 0 modules).map Prod.fst).Nodup := by
  rw [Text.numberFrom_eq_zipIdx, List.map_map]
  have hfst : Prod.fst ∘ Prod.swap = (Prod.snd : SourceModule × Nat → Nat) := rfl
  rw [hfst, List.zipIdx_map_snd]
  exact List.nodup_range'

/-- A choice takes away the first module of its key. -/
theorem leftOf_append_choose? (key : Text) :
    leftOf modules (taken ++ (Pairing.choose? modules taken key).toList) =
      (leftOf modules taken).eraseP fun d => d.realises key := by
  have hfound : ((Text.numberFrom 0 modules).filter fun m => !decide (m.1 ∈ taken)).find?
      (fun m => m.2.realises key) =
      (Text.numberFrom 0 modules).find? fun m => !decide (m.1 ∈ taken) && m.2.realises key := by
    rw [List.find?_filter]
    congr 1
    funext m
    simp
  unfold leftOf Pairing.choose?
  rw [List.eraseP_map, ← hfound]
  congr 1
  cases hfind : ((Text.numberFrom 0 modules).filter fun m => !decide (m.1 ∈ taken)).find?
      (fun m => m.2.realises key) with
  | none =>
    have hkept := List.eraseP_of_forall_not (List.find?_eq_none.mp hfind)
    refine Eq.trans ?_ hkept.symm
    simp
  | some m =>
    have hnodup : (((Text.numberFrom 0 modules).filter fun m => !decide (m.1 ∈ taken)).map
        Prod.fst).Nodup := nodup_fst_numberFrom.sublist (List.filter_sublist.map _)
    have herase := filter_fst_ne_eq_eraseP hnodup hfind
    rw [List.filter_filter] at herase
    refine Eq.trans (List.filter_congr fun n _ => ?_) herase
    simp [Bool.and_comm]

/-- The positions that are not taken are those of the modules left. -/
theorem filterMap_range_eq_leftOf :
    ((List.range modules.length).filter fun i => !decide (i ∈ taken)).filterMap
      (fun i => modules[i]?) = leftOf modules taken := by
  have hnumbered : (List.range modules.length).filterMap (fun i => modules[i]?.map (i, ·)) =
      Text.numberFrom 0 modules := by
    have hall : (List.range modules.length).map (fun i => modules[i]?.map (i, ·)) =
        ((modules.zipIdx 0).map Prod.swap).map some := by
      apply List.ext_getElem
      · simp
      · intro n hn hn'
        simp
    rw [← Function.id_comp fun i => modules[i]?.map (i, ·), ← List.filterMap_map, hall,
      List.filterMap_map, Text.numberFrom_eq_zipIdx]
    exact List.filterMap_some
  unfold leftOf
  rw [← hnumbered, List.filter_filterMap, List.map_filterMap, List.filterMap_filter]
  apply List.filterMap_congr
  intro i _
  cases hi : modules[i]? with
  | none => simp
  | some d => by_cases htaken : i ∈ taken <;> simp [Option.filter, htaken]

/-- The loop over positions serves the specifications from what is not taken yet. -/
theorem subjects_from_eq_serve (specs : List Specification) :
    (specs.zip (Pairing.assign modules taken specs)).map (fun p => subjectOf modules p.1 p.2) ++
      (((List.range modules.length).filter fun i =>
          !decide (i ∈ taken) && !decide (some i ∈ Pairing.assign modules taken specs)).filterMap
        fun i => modules[i]?).map Subject.implementation =
      serve (leftOf modules taken) specs := by
  induction specs generalizing taken with
  | nil =>
    rw [serve, ← filterMap_range_eq_leftOf]
    simp [Pairing.assign]
  | cons s rest ih =>
    rw [serve, ← leftOf_append_choose?, ← ih, Pairing.assign, List.zip_cons_cons, List.map_cons,
      List.cons_append, subjectOf_choose?]
    congr 4
    apply List.filter_congr
    intro i _
    rw [Bool.eq_iff_iff]
    simp only [Bool.and_eq_true, Bool.not_eq_true', decide_eq_false_iff_not, List.mem_append,
      List.mem_cons, not_or, and_assoc]
    cases Pairing.choose? modules taken (conceptKey s.name) <;> simp

/-- The subjects are what serving the specifications in order gives. -/
theorem subjects_eq_serve (specs : List Specification) (modules : List SourceModule) :
    subjects specs modules = serve modules specs := by
  have hall : leftOf modules [] = modules := by
    have hsnd : Prod.snd ∘ Prod.swap = (Prod.fst : SourceModule × Nat → SourceModule) := rfl
    unfold leftOf
    simp [Text.numberFrom_eq_zipIdx, hsnd, List.zipIdx_map_fst]
  rw [← hall, ← subjects_from_eq_serve, hall]
  simp [subjects, Pairing.ofLists]

/-! ## Leaving other concepts aside -/

/-- Whether a report is about a concept: about a specification of its key, or about a module that no
specification took and that realises it. -/
def Subject.concerns (key : Text) : Subject → Bool
  | pair s _ => conceptKey s.name = key
  | specification s => conceptKey s.name = key
  | implementation d => d.realises key

/-- No module of the concept realises the concept of a specification of another key. -/
def Uncontested (key : Text) (specs : List Specification) (modules : List SourceModule) : Prop :=
  ∀ d ∈ modules, d.realises key = true → ∀ s ∈ specs, conceptKey s.name ≠ key →
    d.realises (conceptKey s.name) = false

instance (key : Text) (specs : List Specification) (modules : List SourceModule) :
    Decidable (Uncontested key specs modules) :=
  inferInstanceAs (Decidable (∀ d ∈ modules, d.realises key = true → ∀ s ∈ specs, _ → _))

variable {key : Text} {left : List SourceModule}

/-- What a specification is served with concerns its own concept only. -/
theorem concerns_served :
    (served left s).concerns key = decide (conceptKey s.name = key) := by
  unfold served
  split <;> rfl

/-- A specification of the concept finds the same module among those of the concept. -/
theorem served_filter (hs : conceptKey s.name = key) :
    served (left.filter fun d => d.realises key) s = served left s := by
  have hfind : (left.filter fun d => d.realises key).find?
      (fun d => d.realises (conceptKey s.name)) =
      left.find? fun d => d.realises (conceptKey s.name) := by
    rw [List.find?_filter, hs]
    simp
  unfold served
  rw [hfind]

/-- Serving the specifications of a concept from its modules gives the subjects that concern it. -/
theorem serve_filter {specs : List Specification} (h : Uncontested key specs left) :
    serve (left.filter fun d => d.realises key)
        (specs.filter fun s => conceptKey s.name = key) =
      (serve left specs).filter (Subject.concerns key) := by
  induction specs generalizing left with
  | nil =>
    rw [serve, List.filter_nil, serve, List.filter_map]
    rfl
  | cons s rest ih =>
    have hrest : Uncontested key rest (left.eraseP fun d => d.realises (conceptKey s.name)) :=
      fun d hd hkey t ht => h d (List.mem_of_mem_eraseP hd) hkey t (List.mem_cons_of_mem _ ht)
    rw [serve, List.filter_cons, List.filter_cons, concerns_served]
    by_cases hs : conceptKey s.name = key
    · rw [if_pos (by simpa using hs), if_pos (by simpa using hs), serve, served_filter hs,
        ← ih hrest, hs, eraseP_filter_self]
    · have hother : ∀ d ∈ left, d.realises key = true → d.realises (conceptKey s.name) = false :=
        fun d hd hkey => h d hd hkey s List.mem_cons_self hs
      rw [if_neg (by simpa using hs), if_neg (by simpa using hs), ← ih hrest,
        filter_eraseP_of_disjoint hother]

/-- If no other specification can take a module of a concept, then the subjects of that concept are
those among all subjects. -/
theorem subjects_filter {specs : List Specification} (h : Uncontested key specs modules) :
    subjects (specs.filter fun s => conceptKey s.name = key)
        (modules.filter fun d => d.realises key) =
      (subjects specs modules).filter (Subject.concerns key) := by
  rw [subjects_eq_serve, subjects_eq_serve, serve_filter h]

/-! ## The run on one concept -/

variable {patternFault : Text → Option Text} {related : List RelatedFile}

/-- Each report of a run is one on its subject, with an assessor that remembers nothing. -/
theorem isReportOn_run (assessor : Assessor Id) (subject : Subject) :
    IsReportOn patternFault related subject
      (reportOn assessor patternFault related subject).run := by
  cases subject with
  | pair s d =>
    cases hfiles : filesReferring patternFault related s.name with
    | error e =>
      rw [reportOn_pair_of_error assessor hfiles]
      exact .incomparable hfiles
    | ok files =>
      rw [reportOn_pair assessor hfiles]
      exact .comparison hfiles _
  | specification s => exact .unimplemented s
  | implementation d => exact .unspecified d

/-- A run fails just if one of its two directories is missing. -/
theorem run_ofTree_eq_error_iff {assessor : Assessor Id} {tree : FileTree} {scope : Scope}
    {e : RunError} :
    (ofTree assessor tree scope).run = .error e ↔
      (∃ cause, tree.specifications scope.specDirectory = .error cause ∧
        e = .specifications cause) ∨
      ∃ specs cause, tree.specifications scope.specDirectory = .ok specs ∧
        tree.modules scope.implementationDirectory = .error cause ∧ e = .implementations cause := by
  unfold ofTree
  cases hspecs : tree.specifications scope.specDirectory with
  | error cause => simp [eq_comm]
  | ok specs =>
    cases hmodules : tree.modules scope.implementationDirectory with
    | error cause => simp [eq_comm]
    | ok modules => simp

/-- Whether a subject is a pair that cannot be compared: there are related files to be searched, and
there is no search pattern for the name of its concept. -/
def Subject.isIncomparable (patternFault : Text → Option Text) (related : List RelatedFile) :
    Subject → Bool
  | pair s _ => !related.isEmpty && (patternFault (baseName s.name)).isSome
  | _ => false

/-- Some of the subjects have the failures of all just if they hold every pair that cannot be
compared. -/
theorem failures_filter_eq_iff {keep : Subject → Bool} {subjects : List Subject} :
    failures patternFault related (subjects.filter keep) =
        failures patternFault related subjects ↔
      ∀ subject ∈ subjects, subject.isIncomparable patternFault related = true →
        keep subject = true := by
  unfold failures
  rw [filterMap_filter_eq_iff]
  refine forall₂_congr fun subject _ => ?_
  cases subject with
  | specification s => simp [Subject.isIncomparable]
  | implementation d => simp [Subject.isIncomparable]
  | pair s d =>
    refine imp_congr_left ?_
    cases hempty : related.isEmpty with
    | true => simp [filesReferring, Subject.isIncomparable, hempty]
    | false =>
      cases hfault : patternFault (baseName s.name) with
      | none => simp [filesReferring, Subject.isIncomparable, hempty, hfault]
      | some cause => simp [filesReferring, Subject.isIncomparable, hempty, hfault]

/-- The run on one concept fails just as the run on all. If no module of the concept could go to a
specification of another one, its reports are those reports of the full run, unchanged and in order,
that are on specifications of the concept or on modules of it that no specification took. It leaves
out no file that the full run does not leave out, and the same ones just if every pair that cannot
be compared, for want of a search pattern, is one of the concept. -/
theorem run_on_concept_selects (assessor : Assessor Id) (tree : FileTree) (scope : Scope)
    (name : Text)
    (huncontested : ∀ specs modules, tree.specifications scope.specDirectory = .ok specs →
      tree.modules scope.implementationDirectory = .ok modules →
      Uncontested (conceptKey name) specs.items modules.items) :
    (∀ e, (ofTree assessor tree { scope with concept := none }).run = .error e ↔
      (ofTree assessor tree { scope with concept := some name }).run = .error e) ∧
    ∀ full, (ofTree assessor tree { scope with concept := none }).run = .ok full →
      ∃ selected specs modules,
        (ofTree assessor tree { scope with concept := some name }).run = .ok selected ∧
        tree.specifications scope.specDirectory = .ok specs ∧
        tree.modules scope.implementationDirectory = .ok modules ∧
        List.Forall₂
          (IsReportOn scope.patternFault (tree.relatedFiles scope.relatedDirectory).items)
          (subjects specs.items modules.items) full.reports ∧
        selected.reports =
          (((subjects specs.items modules.items).zip full.reports).filter fun p =>
            p.1.concerns (conceptKey name)).map Prod.snd ∧
        selected.skipped.Sublist full.skipped ∧
        (selected.skipped = full.skipped ↔
          ∀ subject ∈ subjects specs.items modules.items,
            subject.isIncomparable scope.patternFault
                (tree.relatedFiles scope.relatedDirectory).items = true →
              subject.concerns (conceptKey name) = true) := by
  have herror : ∀ e, (ofTree assessor tree { scope with concept := none }).run = .error e ↔
      (ofTree assessor tree { scope with concept := some name }).run = .error e := by
    intro e
    rw [run_ofTree_eq_error_iff, run_ofTree_eq_error_iff]
  refine ⟨herror, ?_⟩
  intro full hfull
  rcases run_ofTree_cases tree { scope with concept := none } with
    ⟨e, he⟩ | ⟨specs, modules, hspecs, hmodules, hall⟩
  · rw [he] at hfull
    cases hfull
  rcases run_ofTree_cases tree { scope with concept := some name } with
    ⟨e, he⟩ | ⟨specs', modules', hspecs', hmodules', hone⟩
  · rw [(herror e).mpr (he assessor)] at hfull
    cases hfull
  obtain rfl : specs' = specs := Except.ok.inj (hspecs'.symm.trans hspecs)
  obtain rfl : modules' = modules := Except.ok.inj (hmodules'.symm.trans hmodules)
  obtain rfl := Except.ok.inj ((hall assessor).symm.trans hfull)
  have hsubjects : subjectsInScope { scope with concept := some name } specs' modules' =
      (subjects specs'.items modules'.items).filter (Subject.concerns (conceptKey name)) :=
    subjects_filter (huncontested specs' modules' hspecs hmodules)
  refine ⟨_, specs', modules', hone assessor, hspecs, hmodules, ?_, ?_, ?_, ?_⟩
  · rw [List.forall₂_map_right_iff]
    exact List.forall₂_same.mpr fun subject _ => isReportOn_run assessor subject
  · rw [hsubjects]
    exact map_filter_eq_zip _ _ _
  · unfold skippedInScope
    rw [hsubjects]
    exact List.Sublist.append_left (List.filter_sublist.filterMap _) _
  · unfold skippedInScope
    rw [hsubjects]
    exact (List.append_right_inj _).trans failures_filter_eq_iff

/-- In the small project a run on the concept of the team and a run on all agree about it. -/
theorem small_project_team_selected :
    ∃ full selected,
      (ofTree (.disabled : Assessor Id) smallProject { smallScope with concept := none }).run =
        .ok full ∧
      (ofTree (.disabled : Assessor Id) smallProject
        { smallScope with concept := some ("team" : Text) }).run = .ok selected ∧
      selected.skipped = full.skipped ∧
      ∃ specs modules, smallProject.specifications "specs" = .ok specs ∧
        smallProject.modules "concepts" = .ok modules ∧
        Uncontested (conceptKey "team") specs.items modules.items ∧
        (subjects specs.items modules.items).length = 3 ∧
        selected.reports =
          (((subjects specs.items modules.items).zip full.reports).filter fun p =>
            p.1.concerns (conceptKey "team")).map Prod.snd := by
  have hloaded : ((smallProject.specifications "specs").toOption.bind fun specs =>
      (smallProject.modules "concepts").toOption.map fun modules =>
        decide (Uncontested (conceptKey "team") specs.items modules.items ∧
          (subjects specs.items modules.items).length = 3)) = some true := by
    simp only [FileTree.specifications, FileTree.modules, FileTree.list_eq_insertionSort]
    decide +kernel
  have hok : (ofTree (.disabled : Assessor Id) smallProject
      { smallScope with concept := none }).run.isOk = true := by
    decide +kernel
  cases hfull : (ofTree (.disabled : Assessor Id) smallProject
      { smallScope with concept := none }).run with
  | error e =>
    rw [hfull] at hok
    cases hok
  | ok full =>
    have hchecked : ∀ specs modules, smallProject.specifications "specs" = .ok specs →
        smallProject.modules "concepts" = .ok modules →
        Uncontested (conceptKey "team") specs.items modules.items ∧
          (subjects specs.items modules.items).length = 3 := by
      intro specs modules hspecs hmodules
      rw [hspecs, hmodules] at hloaded
      exact of_decide_eq_true (Option.some.inj hloaded)
    obtain ⟨selected, specs, modules, hselected, hspecs, hmodules, -, hreports, -, hskipped⟩ :=
      (run_on_concept_selects .disabled smallProject smallScope "team"
        fun specs modules hspecs hmodules => (hchecked specs modules hspecs hmodules).1).2
        full hfull
    obtain ⟨huncontested, hlength⟩ := hchecked specs modules hspecs hmodules
    refine ⟨full, selected, rfl, hselected, hskipped.mpr ?_, specs, modules, hspecs, hmodules,
      huncontested, hlength, hreports⟩
    -- Where there are no related files, every pair can be compared.
    rintro (_ | _ | _) _ ⟨⟩

/-! ## A pair that cannot be compared -/

open Text

/-- Where both directories load, the run is a loop over its subjects. -/
theorem run_ofTree_eq_ok {assessor : Assessor Id} {tree : FileTree} {scope : Scope}
    {specs : Scan Specification} {modules : Scan SourceModule}
    (hspecs : tree.specifications scope.specDirectory = .ok specs)
    (hmodules : tree.modules scope.implementationDirectory = .ok modules) :
    (ofTree assessor tree scope).run = .ok
      { reports := (subjectsInScope scope specs modules).map fun subject =>
          (reportOn assessor scope.patternFault
            (tree.relatedFiles scope.relatedDirectory).items subject).run
        skipped := skippedInScope tree scope specs modules } := by
  rcases run_ofTree_cases tree scope with ⟨e, he⟩ | ⟨specs', modules', hspecs', hmodules', hrun⟩
  · rcases run_ofTree_eq_error_iff.mp (he assessor) with ⟨_, h, -⟩ | ⟨_, _, -, h, -⟩
    · rw [hspecs] at h
      cases h
    · rw [hmodules] at h
      cases h
  · obtain rfl := Except.ok.inj (hspecs'.symm.trans hspecs)
    obtain rfl := Except.ok.inj (hmodules'.symm.trans hmodules)
    exact hrun assessor

/-- A project with two concepts and a related file, before the first concept has got its name. -/
def unnamedProject : FileTree :=
  let file (dir name text : Text) (tree : FileTree) : FileTree :=
    tree.put ["work", dir, name] (.file (.text text))
  (FileTree.fresh ["work"])
    |>.put ["work", "specs"] .directory
    |>.put ["work", "concepts"] .directory
    |>.put ["work", "syncs"] .directory
    |> file "specs" "Long.concept" []
    |> file "specs" "Team.concept" "concept Team\n"
    |> file "concepts" "Long.ts" []
    |> file "concepts" "TeamConcept.ts" "export default class TeamConcept \x7b\n\x7d\n"
    |> file "syncs" "notes.md" "Nothing yet.\n"

/-- The project with a name for its first concept, in the specification and in the module. -/
def projectNaming (name : Text) : FileTree :=
  (unnamedProject.put ["work", "specs", "Long.concept"]
      (.file (.text (unlines [("concept " : Text) ++ name])))).put ["work", "concepts", "Long.ts"]
    (.file (.text (ClassMember.printClass name [])))

/-- The specification of the first concept. -/
def firstSpecification (name : Text) : Specification :=
  { Specification.blank "specs/Long.concept" with name := name }

/-- The module of the first concept. -/
def firstModule (name : Text) : SourceModule :=
  SourceModule.read (ClassMember.printClass name []) "concepts/Long.ts"

/-- The specification of the second concept. -/
def secondSpecification : Specification :=
  { Specification.blank "specs/Team.concept" with name := "Team" }

/-- The module of the second concept. -/
def secondModule : SourceModule :=
  SourceModule.read "export default class TeamConcept \x7b\n\x7d\n" "concepts/TeamConcept.ts"

/-- Where each path loads, nothing is left out. -/
theorem ofPaths_of_forall₂ {α : Type} {load : Text → Except Text α} {paths : List Text}
    {items : List α} (h : List.Forall₂ (fun path item => load path = .ok item) paths items) :
    Scan.ofPaths load paths = ⟨items, []⟩ := by
  induction h with
  | nil => rfl
  | cons hitem _ ih => simp only [Scan.ofPaths, hitem, ih]

/-- Of two pairs that are left out just if they cannot be compared, the first one is. -/
theorem failures_pairs {patternFault : Text → Option Text} {related : List RelatedFile}
    {s t : Specification} {d e : SourceModule} {fault : PatternError} {files : List RelatedFile}
    (hs : filesReferring patternFault related s.name = .error fault)
    (ht : filesReferring patternFault related t.name = .ok files) :
    failures patternFault related [.pair s d, .pair t e] = [⟨d.path, fault.message⟩] := by
  simp [failures, hs, ht]

/-- A pair that can be compared is no failure, whether it is looked at or not. -/
theorem failures_filter_singleton {patternFault : Text → Option Text} {related : List RelatedFile}
    {s : Specification} {d : SourceModule} {keep : Subject → Bool} {files : List RelatedFile}
    (hs : filesReferring patternFault related s.name = .ok files) :
    failures patternFault related ([.pair s d].filter keep) = [] := by
  cases hkeep : keep (.pair s d) <;> simp [failures, hs, hkeep]

section Naming

variable {name : Text}

/-- The files of each directory before the first concept has got its name. -/
theorem list_unnamedProject :
    unnamedProject.list "specs" ["concept", "md"] =
        .ok ["specs/Long.concept", "specs/Team.concept"] ∧
      unnamedProject.list "concepts" ["ts"] =
        .ok ["concepts/Long.ts", "concepts/TeamConcept.ts"] ∧
      unnamedProject.list "syncs" ["ts", "sync", "md"] = .ok ["syncs/notes.md"] := by
  simp only [FileTree.list_eq_insertionSort]
  decide +kernel

/-- The places that the paths of the files lead to. -/
theorem resolve_unnamedProject :
    unnamedProject.resolve "specs/Long.concept" = .ok ["work", "specs", "Long.concept"] ∧
      unnamedProject.resolve "specs/Team.concept" = .ok ["work", "specs", "Team.concept"] ∧
      unnamedProject.resolve "concepts/Long.ts" = .ok ["work", "concepts", "Long.ts"] ∧
      unnamedProject.resolve "concepts/TeamConcept.ts" =
        .ok ["work", "concepts", "TeamConcept.ts"] ∧
      unnamedProject.resolve "syncs/notes.md" = .ok ["work", "syncs", "notes.md"] := by
  decide +kernel

/-- The two files that are still without the name are there. -/
theorem isFile_unnamedProject :
    unnamedProject.isFile ["work", "specs", "Long.concept"] = true ∧
      unnamedProject.isFile ["work", "concepts", "Long.ts"] = true := by
  constructor <;> rfl

/-- With its name, the first concept has its texts in two files, and the rest is as before. -/
theorem node?_projectNaming (place : Place) :
    (projectNaming name).node? place =
      if place = (["work", "concepts", "Long.ts"] : List Text) then
        some (.file (.text (ClassMember.printClass name [])))
      else if place = (["work", "specs", "Long.concept"] : List Text) then
        some (.file (.text (unlines [("concept " : Text) ++ name])))
      else unnamedProject.node? place := by
  unfold projectNaming
  rw [FileTree.node?_put _ (by decide), FileTree.node?_put _ (by decide)]

/-- The module is a file also once the specification has got the name. -/
theorem isFile_module_named (contents : Contents) :
    (unnamedProject.put ["work", "specs", "Long.concept"] (.file contents)).isFile
      ["work", "concepts", "Long.ts"] = true := by
  obtain ⟨old, hold⟩ := FileTree.isFile_iff.mp isFile_unnamedProject.2
  refine FileTree.isFile_iff.mpr ⟨old, ?_⟩
  rw [FileTree.node?_put_file isFile_unnamedProject.1, if_neg (by decide), hold]

/-- The project is listed as it was before the name was written. -/
theorem list_projectNaming {dir : Text} {extensions paths : List Text}
    (h : unnamedProject.list dir extensions = .ok paths) :
    (projectNaming name).list dir extensions = .ok paths :=
  FileTree.list_put_file (isFile_module_named _) _
    (FileTree.list_put_file isFile_unnamedProject.1 _ h)

/-- A path leads to the text that now stands where it led before. -/
theorem readText_projectNaming {path text : Text} {place : Place}
    (hplace : unnamedProject.resolve path = .ok place)
    (hnode : (projectNaming name).node? place = some (.file (.text text))) :
    (projectNaming name).readText path = .ok text :=
  FileTree.readText_of_resolve (FileTree.resolve_put_file (isFile_module_named _) _
    (FileTree.resolve_put_file isFile_unnamedProject.1 _ hplace)) hnode

/-- Both specifications load. -/
theorem specifications_projectNaming (hne : name ≠ [])
    (hchars : ∀ c ∈ name, Specification.isNameChar c = true) :
    (projectNaming name).specifications "specs" =
      .ok ⟨[firstSpecification name, secondSpecification], []⟩ := by
  obtain ⟨hlong, hteam, -⟩ := resolve_unnamedProject
  have hnamed : (projectNaming name).readText "specs/Long.concept" =
      .ok (unlines [("concept " : Text) ++ name]) := by
    refine readText_projectNaming hlong ?_
    rw [node?_projectNaming, if_neg (by decide), if_pos rfl]
  have hteam : (projectNaming name).readText "specs/Team.concept" =
      .ok (unlines [("concept " : Text) ++ "Team"]) := by
    refine readText_projectNaming hteam ?_
    rw [node?_projectNaming, if_neg (by decide), if_neg (by decide)]
    rfl
  have hload : ∀ {path title : Text},
      (projectNaming name).readText path = .ok (unlines [("concept " : Text) ++ title]) →
      title ≠ [] → (∀ c ∈ title, Specification.isNameChar c = true) →
      ((projectNaming name).loadSpecification path).mapError LoadError.message =
        .ok { Specification.blank path with name := title } := by
    intro path title hread hne hchars
    have htitle : (title.isEmpty = true) = False := by simp [hne]
    simp only [FileTree.loadSpecification, hread, Except.mapError, bind, Except.bind,
      Specification.read_title hne hchars, htitle, if_false]
  unfold FileTree.specifications
  rw [list_projectNaming list_unnamedProject.1]
  exact congrArg Except.ok (ofPaths_of_forall₂ (.cons (hload hnamed hne hchars)
    (.cons (hload hteam (by decide) (List.all_eq_true.mp (by decide))) .nil)))

/-- Both modules load. -/
theorem modules_projectNaming :
    (projectNaming name).modules "concepts" = .ok ⟨[firstModule name, secondModule], []⟩ := by
  obtain ⟨-, -, hlong, hteam, -⟩ := resolve_unnamedProject
  have hkept : ([("concepts/Long.ts" : Text), "concepts/TeamConcept.ts"].filter fun path =>
      !FileTree.isAuxiliary path) = [("concepts/Long.ts" : Text), "concepts/TeamConcept.ts"] := by
    decide
  have hnamed : (projectNaming name).readText "concepts/Long.ts" =
      .ok (ClassMember.printClass name []) := by
    refine readText_projectNaming hlong ?_
    rw [node?_projectNaming, if_pos rfl]
  have hteam : (projectNaming name).readText "concepts/TeamConcept.ts" =
      .ok "export default class TeamConcept \x7b\n\x7d\n" := by
    refine readText_projectNaming hteam ?_
    rw [node?_projectNaming, if_neg (by decide), if_neg (by decide)]
    rfl
  have hload : ∀ {path source : Text}, (projectNaming name).readText path = .ok source →
      ((projectNaming name).loadModule path).mapError LoadError.message =
        .ok (SourceModule.read source path) := by
    intro path source hread
    simp only [FileTree.loadModule, hread, Except.mapError]
  unfold FileTree.modules
  rw [list_projectNaming list_unnamedProject.2.1]
  refine congrArg Except.ok ((congrArg (Scan.ofPaths _) hkept).trans ?_)
  exact ofPaths_of_forall₂ (.cons (hload hnamed) (.cons (hload hteam) .nil))

/-- The one related file loads. -/
theorem relatedFiles_projectNaming :
    (projectNaming name).relatedFiles (some "syncs") =
      ⟨[⟨"syncs/notes.md", "Nothing yet.\n"⟩], []⟩ := by
  have hread : (projectNaming name).readText "syncs/notes.md" = .ok "Nothing yet.\n" := by
    refine readText_projectNaming resolve_unnamedProject.2.2.2.2 ?_
    rw [node?_projectNaming, if_neg (by decide), if_neg (by decide)]
    rfl
  simp only [FileTree.relatedFiles, Option.map_some,
    list_projectNaming list_unnamedProject.2.2, Scan.ofPaths, FileTree.loadRelated,
    hread, Except.mapError]

/-- The keys of the names that come up in the project, and the names of the second module. -/
theorem conceptKey_team :
    conceptKey "Team" = ("team" : Text) ∧ conceptKey "TeamConcept" = ("team" : Text) ∧
      conceptKey "Long" = ("long" : Text) ∧
      secondModule.name = "TeamConcept" ∧
      secondModule.exposedType = some ("TeamConcept" : Text) := by
  decide +kernel

/-- The second module realises the concept Team only. -/
theorem realises_secondModule {key : Text} :
    secondModule.realises key = true ↔ conceptKey "Team" = key := by
  obtain ⟨hteam, hclass, -, hname, htype⟩ := conceptKey_team
  unfold SourceModule.realises
  rw [htype, Option.any_some, hname, hclass, hteam, Bool.or_self, decide_eq_true_eq]

/-- Each of the two specifications takes its own module. -/
theorem subjects_projectNaming (hname : Lexeme.IsIdentifier name) :
    subjects [firstSpecification name, secondSpecification] [firstModule name, secondModule] =
      [.pair (firstSpecification name) (firstModule name),
        .pair secondSpecification secondModule] := by
  have htype : (firstModule name).exposedType = some name :=
    ClassMember.exposedType_printClass hname _
  have hnamed : (firstModule name).realises (conceptKey (firstSpecification name).name) = true := by
    unfold SourceModule.realises
    rw [htype]
    simp [firstSpecification]
  have hteam : secondModule.realises (conceptKey secondSpecification.name) = true :=
    realises_secondModule.mpr rfl
  rw [subjects_eq_serve]
  simp only [serve, served, List.find?_cons, hnamed, List.eraseP_cons, cond_true, hteam,
    List.map_nil]

variable {patternFault : Text → Option Text}

/-- What a run on the project leaves out are the pairs that cannot be compared. -/
theorem skippedInScope_projectNaming (concept : Option Text) :
    skippedInScope (projectNaming name) ⟨"specs", "concepts", some "syncs", concept, patternFault⟩
        ⟨[firstSpecification name, secondSpecification], []⟩
        ⟨[firstModule name, secondModule], []⟩ =
      failures patternFault [⟨"syncs/notes.md", "Nothing yet.\n"⟩]
        (subjects (specsInScope concept [firstSpecification name, secondSpecification])
          (modulesInScope concept [firstModule name, secondModule])) := by
  unfold skippedInScope
  rw [relatedFiles_projectNaming]
  rfl

variable (hkey : conceptKey name ≠ conceptKey "Team")
include hkey

/-- No module could go to the specification of the other concept. -/
theorem uncontested_projectNaming (hname : Lexeme.IsIdentifier name) :
    Uncontested (conceptKey "Team") [firstSpecification name, secondSpecification]
      [firstModule name, secondModule] := by
  have hnamed : ∀ key, (firstModule name).realises key = true →
      conceptKey "Long" = key ∨ conceptKey name = key := by
    intro key h
    have htype : (firstModule name).exposedType = some name :=
      ClassMember.exposedType_printClass hname _
    unfold SourceModule.realises at h
    rwa [htype, Option.any_some, Bool.or_eq_true, decide_eq_true_eq, decide_eq_true_eq] at h
  have hstem : conceptKey "Long" ≠ conceptKey "Team" := by
    rw [conceptKey_team.1, conceptKey_team.2.2.1]
    decide
  intro d hd hrealises s hs hother
  rcases List.mem_cons.mp hd with rfl | hd
  · rcases hnamed _ hrealises with h | h
    · exact absurd h hstem
    · exact absurd h hkey
  · obtain rfl := List.mem_singleton.mp hd
    rw [Bool.eq_false_iff]
    exact fun h => hother (realises_secondModule.mp h).symm

/-- Where no search pattern is built for the name of the first concept, the run on all leaves out
its module, and the run on the second concept leaves out nothing. -/
theorem skipped_projectNaming (hname : Lexeme.IsIdentifier name)
    (hchars : ∀ c ∈ name, Specification.isNameChar c = true) {cause : Text}
    (hfault : patternFault (baseName name) = some cause) (hteam : patternFault "Team" = none)
    (assessor : Assessor Id) :
    ∃ full selected,
      (ofTree assessor (projectNaming name)
        ⟨"specs", "concepts", some "syncs", none, patternFault⟩).run = .ok full ∧
      (ofTree assessor (projectNaming name)
        ⟨"specs", "concepts", some "syncs", some "Team", patternFault⟩).run = .ok selected ∧
      full.skipped = [⟨"concepts/Long.ts", PatternError.message ⟨cause⟩⟩] ∧
      selected.skipped = [] := by
  have hne : name ≠ [] := by
    rintro rfl
    cases hname
  have hspecs := specifications_projectNaming hne hchars
  have hnamed : filesReferring patternFault [⟨"syncs/notes.md", "Nothing yet.\n"⟩]
      (firstSpecification name).name = .error ⟨cause⟩ := by
    unfold filesReferring firstSpecification
    rw [if_neg (by simp), hfault]
  have hother : ∃ files, filesReferring patternFault [⟨"syncs/notes.md", "Nothing yet.\n"⟩]
      secondSpecification.name = .ok files := by
    have hbase : baseName secondSpecification.name = "Team" := by decide
    unfold filesReferring
    rw [if_neg (by simp), hbase, hteam]
    exact ⟨_, rfl⟩
  obtain ⟨files, hother⟩ := hother
  refine ⟨_, _, run_ofTree_eq_ok hspecs modules_projectNaming,
    run_ofTree_eq_ok hspecs modules_projectNaming, ?_, ?_⟩
  · refine (skippedInScope_projectNaming none).trans ?_
    refine (congrArg (failures _ _) (subjects_projectNaming hname)).trans ?_
    exact failures_pairs hnamed hother
  · refine (skippedInScope_projectNaming (some "Team")).trans ?_
    refine (congrArg (failures _ _)
      (subjects_filter (uncontested_projectNaming hkey hname))).trans ?_
    have hdropped : ¬ Subject.concerns (conceptKey "Team")
        (.pair (firstSpecification name) (firstModule name)) = true :=
      fun h => hkey (of_decide_eq_true h)
    rw [subjects_projectNaming hname, List.filter_cons_of_neg hdropped]
    exact failures_filter_singleton hother

end Naming

/-- A name of one letter, over and over. -/
def repeatedName (n : Nat) : Text := List.replicate n 'a'

/-- The repeated letter can be the name of a class. -/
theorem isIdentifier_repeatedName {n : Nat} (hn : 0 < n) :
    Lexeme.IsIdentifier (repeatedName n) := by
  obtain ⟨m, rfl⟩ := Nat.exists_eq_add_of_lt hn
  have hletter : Lexeme.startsIdentifier 'a' = true ∧ Lexeme.inIdentifier 'a' = true := by decide
  unfold Lexeme.IsIdentifier repeatedName
  rw [Nat.zero_add, List.replicate_succ]
  simp [Lexeme.identifier?, hletter]

/-- The repeated letter can be the name of a concept. -/
theorem isNameChar_repeatedName (n : Nat) :
    ∀ c ∈ repeatedName n, Specification.isNameChar c = true := by
  intro c hc
  obtain rfl := List.eq_of_mem_replicate hc
  decide

/-- The repeated letter has no ending to lose. -/
theorem baseName_repeatedName (n : Nat) : baseName (repeatedName n) = repeatedName n := by
  refine if_neg ?_
  rintro ⟨-, hending⟩
  have hmem : 'c' ∈ conceptEnding.map Char.toLower := by decide
  rw [← hending] at hmem
  obtain ⟨c, hc, hlower⟩ := List.mem_map.mp hmem
  obtain rfl := List.eq_of_mem_replicate (List.mem_of_mem_drop hc)
  revert hlower
  decide

/-- The repeated letter names another concept than Team. -/
theorem conceptKey_repeatedName_ne {n : Nat} (hn : 0 < n) :
    conceptKey (repeatedName n) ≠ conceptKey "Team" := by
  obtain ⟨m, rfl⟩ := Nat.exists_eq_add_of_lt hn
  have hkey : conceptKey (repeatedName (0 + m + 1)) = 'a' :: lowerFrom ['a'] (repeatedName m) := by
    unfold conceptKey
    rw [(isIdentifier_repeatedName hn).trim, baseName_repeatedName, Nat.zero_add]
    rfl
  rw [hkey, conceptKey_team.1]
  rintro ⟨⟩

/-- Why no search pattern is built for long names. -/
def refuseLong (name : Text) : Option Text :=
  if 350000 < name.length then some "Compiled regex exceeds size limit of 10485760 bytes." else none

/-- What a run on the project with the long name looks at. -/
def longScope : Scope :=
  { specDirectory := "specs", implementationDirectory := "concepts"
    relatedDirectory := some "syncs", concept := none, patternFault := refuseLong }

/-- No module of the concept Team could go to another specification, and both runs succeed. Still
the run on Team alone does not leave out the file that the run on all leaves out. -/
theorem long_name_skipped_without_filter_only :
    ∃ specs modules full selected,
      (projectNaming (repeatedName 400000)).specifications longScope.specDirectory = .ok specs ∧
      (projectNaming (repeatedName 400000)).modules longScope.implementationDirectory =
        .ok modules ∧
      Uncontested (conceptKey "Team") specs.items modules.items ∧
      (ofTree (.disabled : Assessor Id) (projectNaming (repeatedName 400000)) longScope).run =
        .ok full ∧
      (ofTree (.disabled : Assessor Id) (projectNaming (repeatedName 400000))
        { longScope with concept := some ("Team" : Text) }).run = .ok selected ∧
      full.skipped = [⟨"concepts/Long.ts", ("Failed to build concept name pattern: " : Text) ++
        "Compiled regex exceeds size limit of 10485760 bytes."⟩] ∧
      selected.skipped = [] := by
  have hpos : 0 < 400000 := by decide
  have hname := isIdentifier_repeatedName hpos
  have hchars := isNameChar_repeatedName 400000
  have hkey := conceptKey_repeatedName_ne hpos
  have hne : repeatedName 400000 ≠ [] := by
    intro h
    rw [h] at hname
    cases hname
  have hfault : refuseLong (baseName (repeatedName 400000)) =
      some "Compiled regex exceeds size limit of 10485760 bytes." := by
    rw [baseName_repeatedName]
    refine if_pos ?_
    unfold repeatedName
    rw [List.length_replicate]
    decide
  obtain ⟨full, selected, hfull, hselected, hskipped, hnone⟩ :=
    skipped_projectNaming hkey hname hchars hfault rfl .disabled
  exact ⟨_, _, full, selected, specifications_projectNaming hne hchars, modules_projectNaming,
    uncontested_projectNaming hkey hname, hfull, hselected, hskipped, hnone⟩

end Concordance.Run
