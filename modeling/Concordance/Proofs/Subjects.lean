import Concordance.Alignment.Run
import Concordance.Proofs.Lists
import Concordance.Proofs.Pairing

set_option autoImplicit false

/-!
# What a run reports on

The subjects of a run are settled by the pairing alone. Each specification is the subject of one
report, in order, and each module of one, whether a specification took it or not. What an assessor
says enters a report only as the remarks on a pair, so that for each kind of subject there is one
form that its report can have (`IsReportOn`). Assessors may remember what they were asked: the
reports are those of a run from any memory.
-/

namespace Concordance.Run

namespace Subject

/-- The specification that a report is about. -/
def specification? : Subject → Option Specification
  | pair s _ => some s
  | specification s => some s
  | implementation _ => none

/-- The module that a report is about. -/
def implementation? : Subject → Option SourceModule
  | pair _ d => some d
  | specification _ => none
  | implementation d => some d

end Subject

variable {specs : List Specification} {modules : List SourceModule}

/-! ## The subjects -/

/-- Whatever is taken, the subject of a specification has that specification. -/
theorem specification?_subjectOf (s : Specification) (taken : Option Nat) :
    (subjectOf modules s taken).specification? = some s := by
  unfold subjectOf
  split <;> rfl

/-- The subject of a specification has the module that was taken for it, if there was one. -/
theorem implementation?_subjectOf (s : Specification) (taken : Option Nat) :
    (subjectOf modules s taken).implementation? = taken.bind fun i => modules[i]? := by
  unfold subjectOf
  split
  · next d hd => exact hd.symm
  · next hnone => exact hnone.symm

/-- Every specification is assigned a module or none. -/
@[simp] theorem length_assigned : (Pairing.ofLists specs modules).assigned.length = specs.length :=
  Pairing.length_assign

/-- The specifications of the subjects are all of them, in order. -/
theorem filterMap_specification?_subjects (specs : List Specification)
    (modules : List SourceModule) :
    (subjects specs modules).filterMap Subject.specification? = specs := by
  have hspecs : Subject.specification? ∘
      (fun p : Specification × Option Nat => subjectOf modules p.1 p.2) = some ∘ Prod.fst := by
    funext p
    exact specification?_subjectOf p.1 p.2
  have hrest : ∀ l : List SourceModule,
      (l.map Subject.implementation).filterMap Subject.specification? = [] := by
    intro l
    rw [List.filterMap_map, List.filterMap_eq_nil_iff]
    exact fun _ _ => rfl
  simp only [subjects]
  rw [List.filterMap_append, hrest, List.append_nil, List.filterMap_map, hspecs,
    List.filterMap_eq_map, List.map_fst_zip]
  exact Nat.le_of_eq length_assigned.symm

/-- The modules of the subjects are those at the claimed positions and then the others. -/
theorem filterMap_implementation?_subjects (specs : List Specification)
    (modules : List SourceModule) :
    (subjects specs modules).filterMap Subject.implementation? =
      ((Pairing.ofLists specs modules).claimed ++
        (Pairing.ofLists specs modules).unclaimed).filterMap fun i => modules[i]? := by
  have htaken : Subject.implementation? ∘
      (fun p : Specification × Option Nat => subjectOf modules p.1 p.2) =
        (fun taken : Option Nat => taken.bind fun i => modules[i]?) ∘ Prod.snd := by
    funext p
    exact implementation?_subjectOf p.1 p.2
  have hleft : ∀ l : List SourceModule,
      (l.map Subject.implementation).filterMap Subject.implementation? = l := by
    intro l
    rw [List.filterMap_map]
    exact List.filterMap_some
  simp only [subjects]
  rw [List.filterMap_append, List.filterMap_append, hleft, List.filterMap_map, htaken,
    ← List.filterMap_map, List.map_snd_zip (Nat.le_of_eq length_assigned), Pairing.claimed,
    List.filterMap_filterMap]
  rfl

/-- The modules of the subjects are all modules, each once. -/
theorem perm_filterMap_implementation?_subjects (specs : List Specification)
    (modules : List SourceModule) :
    ((subjects specs modules).filterMap Subject.implementation?).Perm modules := by
  rw [filterMap_implementation?_subjects]
  -- Looking every position up gives the modules in order, so the claimed and the unclaimed ones
  -- give them in some order.
  have hmap : (List.range modules.length).map (fun i => modules[i]?) = modules.map some := by
    apply List.ext_getElem
    · simp
    · intro i hi hi'
      simp
  have hall : (List.range modules.length).filterMap (fun i => modules[i]?) = modules := by
    rw [← Function.id_comp fun i => modules[i]?, ← List.filterMap_map, hmap, List.filterMap_map]
    exact List.filterMap_some
  exact ((Pairing.perm_claimed_unclaimed specs modules).filterMap _).trans (by rw [hall])

/-- There is a report for each specification and for each module that none of them took. -/
theorem length_subjects (specs : List Specification) (modules : List SourceModule) :
    (subjects specs modules).length =
      specs.length + (Pairing.ofLists specs modules).unclaimed.length := by
  have hunclaimed : ((Pairing.ofLists specs modules).unclaimed.filterMap fun i =>
      modules[i]?).length = (Pairing.ofLists specs modules).unclaimed.length := by
    rw [List.length_filterMap_eq_countP, List.countP_eq_length]
    intro i hi
    have hlt := (Pairing.mem_unclaimed_iff.mp hi).1
    simp [hlt]
  simp only [subjects]
  rw [List.length_append, List.length_map, List.length_map, hunclaimed, List.length_zip,
    length_assigned, Nat.min_self]

/-! ## The reports -/

/-- What a report on a subject can be, whatever an assessor says. -/
inductive IsReportOn (patternFault : Text → Option Text) (related : List RelatedFile) :
    Subject → Report → Prop where
  | comparison {s : Specification} {d : SourceModule} {files : List RelatedFile}
      (hfiles : filesReferring patternFault related s.name = .ok files)
      (assessment : Option Assessment) :
      IsReportOn patternFault related (.pair s d) (comparison files s d assessment)
  | incomparable {s : Specification} {d : SourceModule} {e : PatternError}
      (hfault : filesReferring patternFault related s.name = .error e) :
      IsReportOn patternFault related (.pair s d) (incomparable s d e)
  | unimplemented (s : Specification) :
      IsReportOn patternFault related (.specification s) (unimplemented s)
  | unspecified (d : SourceModule) :
      IsReportOn patternFault related (.implementation d) (unspecified d)

variable {patternFault : Text → Option Text} {related : List RelatedFile} {σ : Type}

/-- A report is one on its subject, whatever the assessor answers and remembers. -/
theorem isReportOn_reportOn (assessor : Assessor (StateM σ)) (subject : Subject) (memory : σ) :
    IsReportOn patternFault related subject
      ((reportOn assessor patternFault related subject).run memory).1 := by
  cases subject with
  | pair s d =>
    simp only [reportOn]
    cases hfiles : filesReferring patternFault related s.name with
    | error e => exact .incomparable hfiles
    | ok files => exact .comparison hfiles _
  | specification s => exact .unimplemented s
  | implementation d => exact .unspecified d

/-- The subjects of a run over loaded specifications and modules. -/
def subjectsInScope (scope : Scope) (specs : Scan Specification) (modules : Scan SourceModule) :
    List Subject :=
  subjects (specsInScope scope.concept specs.items) (modulesInScope scope.concept modules.items)

/-- What such a run leaves out. -/
def skippedInScope (tree : FileTree) (scope : Scope) (specs : Scan Specification)
    (modules : Scan SourceModule) : List Skipped :=
  specs.skipped ++ modules.skipped ++ (tree.relatedFiles scope.relatedDirectory).skipped ++
    failures scope.patternFault (tree.relatedFiles scope.relatedDirectory).items
      (subjectsInScope scope specs modules)

/-- A run fails with an error that no assessor has a say in, or both directories are loaded and the
run is a loop over its subjects. -/
theorem ofTree_cases (tree : FileTree) (scope : Scope) :
    (∃ e, ∀ {m : Type → Type} [Monad m] (assessor : Assessor m),
      ofTree assessor tree scope = pure (.error e)) ∨
    ∃ specs modules,
      tree.specifications scope.specDirectory = .ok specs ∧
      tree.modules scope.implementationDirectory = .ok modules ∧
      ∀ {m : Type → Type} [Monad m] (assessor : Assessor m),
        ofTree assessor tree scope = (do
          let reports ← (subjectsInScope scope specs modules).mapM
            (reportOn assessor scope.patternFault (tree.relatedFiles scope.relatedDirectory).items)
          pure (.ok { reports, skipped := skippedInScope tree scope specs modules })) := by
  cases hspecs : tree.specifications scope.specDirectory with
  | error e =>
    refine Or.inl ⟨.specifications e, fun assessor => ?_⟩
    unfold ofTree
    rw [hspecs]
  | ok specs =>
    cases hmodules : tree.modules scope.implementationDirectory with
    | error e =>
      refine Or.inl ⟨.implementations e, fun assessor => ?_⟩
      unfold ofTree
      rw [hspecs, hmodules]
    | ok modules =>
      refine Or.inr ⟨specs, modules, rfl, rfl, fun assessor => ?_⟩
      unfold ofTree
      rw [hspecs, hmodules]
      rfl

/-- A run that ends well has loaded both directories, has one report on each subject, and has left
out what could not be loaded or compared. -/
theorem of_ofTree_eq_ok {assessor : Assessor (StateM σ)} {memory : σ} {tree : FileTree}
    {scope : Scope} {run : Run} (h : ((ofTree assessor tree scope).run memory).1 = .ok run) :
    ∃ specs modules,
      tree.specifications scope.specDirectory = .ok specs ∧
      tree.modules scope.implementationDirectory = .ok modules ∧
      List.Forall₂
        (IsReportOn scope.patternFault (tree.relatedFiles scope.relatedDirectory).items)
        (subjectsInScope scope specs modules) run.reports ∧
      run.skipped = skippedInScope tree scope specs modules := by
  rcases ofTree_cases tree scope with ⟨e, he⟩ | ⟨specs, modules, hspecs, hmodules, hloop⟩
  · rw [he] at h
    cases h
  · rw [hloop] at h
    have hrun := Except.ok.inj h
    rw [← hrun]
    refine ⟨specs, modules, hspecs, hmodules, ?_, rfl⟩
    exact forall₂_mapM_run (fun subject memory => isReportOn_reportOn assessor subject memory)
      _ memory

/-- A report names the specification of its subject, or leaves its place empty. -/
theorem IsReportOn.specFile_eq {subject : Subject} {r : Report}
    (h : IsReportOn patternFault related subject r) :
    r.specFile = (subject.specification?.map Specification.path).getD [] := by
  cases h <;> rfl

/-- A report names the module of its subject, or marks that there is none. -/
theorem IsReportOn.implementationFile_eq {subject : Subject} {r : Report}
    (h : IsReportOn patternFault related subject r) :
    r.implementationFile =
      (subject.implementation?.map SourceModule.path).getD Report.missingImplementation := by
  cases h <;> rfl

end Concordance.Run
