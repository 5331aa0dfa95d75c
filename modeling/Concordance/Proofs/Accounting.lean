import Concordance.Proofs.Listing
import Concordance.Proofs.Subjects

set_option autoImplicit false

/-!
# Every file is accounted for

A file of a project can get lost at several seams: it is listed, loaded, paired and reported on. A
scan keeps what it loads and notes what it leaves out, so that both together are the listed paths;
a pairing shares out the modules; and a report names the files of its subject. Over a whole project
and with no related files, each file of either kind is therefore named by one report or noted as
left out, once.
-/

namespace Concordance

/-- The members of a list are the things of a kind, each once. -/
def ListsOnce {α : Type} (kind : α → Prop) (l : List α) : Prop :=
  l.Nodup ∧ ∀ a, a ∈ l ↔ kind a

/-- What lists a kind once still does after a reordering. -/
theorem ListsOnce.of_perm {α : Type} {kind : α → Prop} {l l' : List α} (h : ListsOnce kind l)
    (hperm : l'.Perm l) : ListsOnce kind l' :=
  ⟨hperm.nodup_iff.mpr h.1, fun a => hperm.mem_iff.trans (h.2 a)⟩

/-! ## Scans -/

/-- What a scan loads and what it leaves out are the paths that it was given. -/
theorem Scan.perm_ofPaths {α : Type} {load : Text → Except Text α} {pathOf : α → Text}
    (hload : ∀ path item, load path = .ok item → pathOf item = path) (paths : List Text) :
    ((Scan.ofPaths load paths).items.map pathOf ++
      (Scan.ofPaths load paths).skipped.map Skipped.path).Perm paths := by
  induction paths with
  | nil => exact List.Perm.refl _
  | cons path rest ih =>
    simp only [Scan.ofPaths]
    cases hpath : load path with
    | ok item =>
      simp only [List.map_cons, hload path item hpath, List.cons_append]
      exact ih.cons path
    | error reason =>
      simp only [List.map_cons]
      exact List.perm_middle.trans (ih.cons path)

/-- A block does not change which file a specification comes from. -/
theorem Specification.path_addBlock (s : Specification) (b : Block) :
    (s.addBlock b).path = s.path := by
  cases b with
  | title name => rfl
  | content part lines => cases part <;> rfl

/-- A specification is read from the path it is given. -/
theorem Specification.path_read (document path : Text) :
    (Specification.read document path).path = path := by
  have hblocks : ∀ (blocks : List Block) (s : Specification),
      (blocks.foldl addBlock s).path = s.path := by
    intro blocks
    induction blocks with
    | nil => exact fun _ => rfl
    | cons b rest ih =>
      intro s
      rw [List.foldl_cons, ih, path_addBlock]
  unfold Specification.read
  rw [hblocks]
  rfl

namespace FileTree

/-- A specification that is loaded has the path it was loaded from. -/
theorem path_of_loadSpecification {tree : FileTree} {path : Text} {s : Specification}
    (h : tree.loadSpecification path = .ok s) : s.path = path := by
  unfold loadSpecification at h
  cases hread : tree.readText path with
  | error e => simp [hread, Except.mapError, bind, Except.bind] at h
  | ok document =>
    simp only [hread, Except.mapError, bind, Except.bind] at h
    split at h
    · simp at h
    · rw [← Except.ok.inj h, Specification.path_read]

/-- A module that is loaded has the path it was loaded from. -/
theorem path_of_loadModule {tree : FileTree} {path : Text} {d : SourceModule}
    (h : tree.loadModule path = .ok d) : d.path = path := by
  unfold loadModule at h
  split at h
  · rw [← Except.ok.inj h]
    rfl
  · cases h

/-- The specifications of a directory and those left out are its specification files, each once. -/
theorem listsOnce_specifications {tree : FileTree} {dir : Text} {scan : Scan Specification}
    (h : tree.specifications dir = .ok scan) :
    ListsOnce (tree.HasFile dir ["concept", "md"])
      (scan.items.map Specification.path ++ scan.skipped.map Skipped.path) := by
  unfold specifications at h
  cases hlist : tree.list dir ["concept", "md"] with
  | error e =>
    rw [hlist] at h
    cases h
  | ok paths =>
    rw [hlist] at h
    rw [← Except.ok.inj h]
    refine ListsOnce.of_perm ⟨nodup_of_list hlist, mem_list_iff hlist⟩ (Scan.perm_ofPaths ?_ paths)
    intro path s hs
    exact path_of_loadSpecification (ok_of_mapError hs)

/-- The modules of a directory and those left out are its implementation files, each once. -/
theorem listsOnce_modules {tree : FileTree} {dir : Text} {scan : Scan SourceModule}
    (h : tree.modules dir = .ok scan) :
    ListsOnce (fun path => tree.HasFile dir ["ts"] path ∧ isAuxiliary path = false)
      (scan.items.map SourceModule.path ++ scan.skipped.map Skipped.path) := by
  unfold modules at h
  cases hlist : tree.list dir ["ts"] with
  | error e =>
    rw [hlist] at h
    cases h
  | ok paths =>
    rw [hlist] at h
    rw [← Except.ok.inj h]
    have hkept : ListsOnce (fun path => tree.HasFile dir ["ts"] path ∧ isAuxiliary path = false)
        (paths.filter fun path => !isAuxiliary path) := by
      refine ⟨(nodup_of_list hlist).sublist List.filter_sublist, ?_⟩
      intro path
      rw [List.mem_filter, mem_list_iff hlist, Bool.not_eq_true']
    refine hkept.of_perm (Scan.perm_ofPaths ?_ _)
    intro path d hd
    exact path_of_loadModule (ok_of_mapError hd)

end FileTree

/-! ## Reports -/

namespace Run

/-- The specification files that the reports of a run name. -/
def specFiles (r : Run) : List Text :=
  (r.reports.map Report.specFile).filter fun path => path ≠ []

/-- The implementation files that the reports of a run name. -/
def implementationFiles (r : Run) : List Text :=
  (r.reports.map Report.implementationFile).filter fun path => path ≠ Report.missingImplementation

variable {patternFault : Text → Option Text} {related : List RelatedFile}
  {specs : List Specification} {modules : List SourceModule} {run : Run}

/-- The reports name the files of the specifications, in order. -/
theorem specFiles_eq
    (h : List.Forall₂ (IsReportOn patternFault related) (subjects specs modules) run.reports)
    (hpaths : ∀ s ∈ specs, s.path ≠ []) : run.specFiles = specs.map Specification.path := by
  unfold specFiles
  have hspecs := filterMap_specification?_subjects specs modules
  rw [map_eq_of_forall₂ (fun _ _ hr => hr.specFile_eq) h,
    filter_map_getD (by rw [hspecs]; exact hpaths), hspecs]

/-- The reports name the files of the modules, in some order. -/
theorem perm_implementationFiles
    (h : List.Forall₂ (IsReportOn patternFault related) (subjects specs modules) run.reports)
    (hpaths : ∀ d ∈ modules, d.path ≠ Report.missingImplementation) :
    run.implementationFiles.Perm (modules.map SourceModule.path) := by
  unfold implementationFiles
  have hmodules := perm_filterMap_implementation?_subjects specs modules
  rw [map_eq_of_forall₂ (fun _ _ hr => hr.implementationFile_eq) h,
    filter_map_getD fun d hd => hpaths d (hmodules.mem_iff.mp hd)]
  exact hmodules.map _

/-- No specification of a directory has an empty path. -/
theorem path_ne_nil_of_specifications {tree : FileTree} {dir : Text} {scan : Scan Specification}
    (h : tree.specifications dir = .ok scan) : ∀ s ∈ scan.items, s.path ≠ [] := by
  intro s hs hnil
  have hmem : s.path ∈ scan.items.map Specification.path ++ scan.skipped.map Skipped.path :=
    List.mem_append_left _ (List.mem_map_of_mem hs)
  have hfile := ((FileTree.listsOnce_specifications h).2 s.path).mp hmem
  obtain ⟨e, -, hsuffix⟩ := hfile.exists_suffix
  rw [hnil] at hsuffix
  simp at hsuffix

/-- The path of an implementation file is not the mark that there is none. -/
theorem path_ne_missing_of_modules {tree : FileTree} {dir : Text} {scan : Scan SourceModule}
    (h : tree.modules dir = .ok scan) :
    ∀ d ∈ scan.items, d.path ≠ Report.missingImplementation := by
  intro d hd hmissing
  have hmem : d.path ∈ scan.items.map SourceModule.path ++ scan.skipped.map Skipped.path :=
    List.mem_append_left _ (List.mem_map_of_mem hd)
  have hfile := ((FileTree.listsOnce_modules h).2 d.path).mp hmem
  obtain ⟨e, he, hsuffix⟩ := hfile.1.exists_suffix
  -- The path would end in the extension, and the mark does not.
  rw [List.mem_singleton.mp he, hmissing] at hsuffix
  revert hsuffix
  decide

/-- Where there are no related files, every pair can be compared. -/
@[simp] theorem failures_nil (subjects : List Subject) :
    failures patternFault [] subjects = [] := by
  unfold failures
  rw [List.filterMap_eq_nil_iff]
  intro subject _
  cases subject <;> rfl

/-- Over a whole project without related files, the specification files that the reports name and
those that the scan left out are the specification files of the directory, each once; so it is with
implementation files, other than tests and declarations; the run notes just what the two scans left
out; and there is a report for each specification and for each module that none of them claimed. In
a tree every entry below a directory can be looked at, so this says nothing of entries that a search
comes upon and cannot read. -/
theorem every_file_accounted_for_once {σ : Type} (assessor : Assessor (StateM σ)) (memory : σ)
    (tree : FileTree) (scope : Scope) (run : Run) (hconcept : scope.concept = none)
    (hrelated : scope.relatedDirectory = none)
    (hrun : ((ofTree assessor tree scope).run memory).1 = .ok run) :
    ∃ specs modules,
      tree.specifications scope.specDirectory = .ok specs ∧
      tree.modules scope.implementationDirectory = .ok modules ∧
      run.skipped = specs.skipped ++ modules.skipped ∧
      ListsOnce (tree.HasFile scope.specDirectory ["concept", "md"])
        (run.specFiles ++ specs.skipped.map Skipped.path) ∧
      ListsOnce
        (fun path => tree.HasFile scope.implementationDirectory ["ts"] path ∧
          FileTree.isAuxiliary path = false)
        (run.implementationFiles ++ modules.skipped.map Skipped.path) ∧
      run.reports.length =
        specs.items.length + (Pairing.ofLists specs.items modules.items).unclaimed.length := by
  obtain ⟨specs, modules, hspecs, hmodules, hreports, hskipped⟩ := of_ofTree_eq_ok hrun
  simp only [subjectsInScope, specsInScope, modulesInScope, hconcept] at hreports
  have hnone : tree.relatedFiles scope.relatedDirectory = ⟨[], []⟩ := by
    rw [hrelated]
    rfl
  refine ⟨specs, modules, hspecs, hmodules, ?_, ?_, ?_, ?_⟩
  · rw [hskipped, skippedInScope, hnone, failures_nil, List.append_nil, List.append_nil]
  · rw [specFiles_eq hreports (path_ne_nil_of_specifications hspecs)]
    exact FileTree.listsOnce_specifications hspecs
  · have hfiles := perm_implementationFiles hreports (path_ne_missing_of_modules hmodules)
    exact (FileTree.listsOnce_modules hmodules).of_perm (hfiles.append_right _)
  · rw [← hreports.length_eq, length_subjects]

/-- A project with a specification that has a module, one that has none, a note that is no
specification, a module that no specification takes, one that is no text, and a test. -/
def smallProject : FileTree :=
  let file (dir name text : Text) (tree : FileTree) : FileTree :=
    tree.put ["work", dir, name] (.file (.text text))
  (FileTree.fresh ["work"])
    |>.put ["work", "specs"] .directory
    |>.put ["work", "concepts"] .directory
    |> file "specs" "Team.concept" "concept Team\n"
    |> file "specs" "User.concept" "concept User\n"
    |> file "specs" "notes.md" "Nothing yet.\n"
    |> file "concepts" "TeamConcept.ts" "export default class TeamConcept \x7b\n\x7d\n"
    |> file "concepts" "Mail.ts" "export default class Mail \x7b\n\x7d\n"
    |> file "concepts" "Mail.test.ts" "check();\n"
    |>.put ["work", "concepts", "Odd.ts"] (.file (.binary ⟨#[255]⟩))

/-- Where the small project keeps its files. -/
def smallScope : Scope :=
  { specDirectory := "specs", implementationDirectory := "concepts", relatedDirectory := none
    concept := none }

/-- In the small project every file of both directories is in a report or among the skipped ones. -/
theorem small_project_accounted_for :
    ∃ run, ((ofTree (.disabled : Assessor (StateM Unit)) smallProject smallScope).run ()).1 =
        .ok run ∧
      ∃ specs modules,
        smallProject.specifications "specs" = .ok specs ∧
        smallProject.modules "concepts" = .ok modules ∧
        run.skipped = specs.skipped ++ modules.skipped ∧
        ListsOnce (smallProject.HasFile "specs" ["concept", "md"])
          (run.specFiles ++ specs.skipped.map Skipped.path) ∧
        ListsOnce
          (fun path => smallProject.HasFile "concepts" ["ts"] path ∧
            FileTree.isAuxiliary path = false)
          (run.implementationFiles ++ modules.skipped.map Skipped.path) ∧
        run.reports.length =
          specs.items.length + (Pairing.ofLists specs.items modules.items).unclaimed.length := by
  have hok : ((ofTree (.disabled : Assessor (StateM Unit)) smallProject smallScope).run ()).1.isOk =
      true := by
    decide +kernel
  cases hrun : ((ofTree (.disabled : Assessor (StateM Unit)) smallProject smallScope).run ()).1 with
  | error e =>
    rw [hrun] at hok
    cases hok
  | ok run =>
    exact ⟨run, rfl, every_file_accounted_for_once .disabled () smallProject smallScope run rfl rfl
      hrun⟩

end Run

end Concordance
