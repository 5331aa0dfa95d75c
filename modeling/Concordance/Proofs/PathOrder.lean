import Concordance.Proofs.Layout

set_option autoImplicit false

/-!
# Listings in the order of paths

Paths are in the order of their components, part by part. Below one directory all paths begin with
its components, and the names that follow decide (`precedes_shownPath`), so a listing ascends in the
order of paths. It is the one list that does so and holds the paths of the files with one of the
extensions. Neither the order in which searches come upon files nor the order of the tree or of the
extensions can therefore be seen in it.
-/

namespace Concordance

/-! ## The order of paths -/

namespace Path

/-- A part of a path. -/
inductive Component where
  | root
  | current
  | parent
  | named (name : Text)
deriving DecidableEq

namespace Component

/-- The part that a name between slashes is. -/
def ofName (name : Text) : Component := if name = ".." then parent else named name

/-- The place of a kind of parts among the others. -/
def rank : Component → Nat
  | root => 0
  | current => 1
  | parent => 2
  | named _ => 3

/-- Parts are in the order of their kinds, and names in that of texts. -/
def Precedes (a b : Component) : Prop :=
  a.rank < b.rank ∨ ∃ s t, a = named s ∧ b = named t ∧ s < t

end Component

/-- The names on a path, as they are written. -/
def written (path : Text) : List Text := (path.splitOn '/').filter fun name => !name.isEmpty

/-- The parts of a path. A dot is one only in front. -/
def components (path : Text) : List Component :=
  (if isAbsolute path then [Component.root]
    else if (written path).head? = some "." then [Component.current] else []) ++
  ((written path).filter fun name : Text => name ≠ ".").map Component.ofName

/-- A path comes before another, part by part. -/
def Precedes (path other : Text) : Prop :=
  List.Lex Component.Precedes (components path) (components other)

end Path

namespace FileTree

open Text Concordance.Path

variable {tree : FileTree} {dir : Text} {top : Place} {names others extensions : List Text}

/-- A name in a path that is shown is not empty and holds no slash. -/
theorem of_mem_shownDirectory {name : Text} (h : name ∈ shownDirectory dir) :
    name ≠ [] ∧ '/' ∉ name := by
  obtain ⟨hsplit, hne⟩ := List.mem_filter.mp ((List.dropWhile_sublist _).subset h)
  exact ⟨by simpa using hne, not_mem_of_mem_splitOn hsplit⟩

/-- A path that is shown does not begin with the directory itself. -/
theorem head?_shownDirectory_ne (dir : Text) : (shownDirectory dir).head? ≠ some "." := by
  intro h
  have hhead := List.head?_dropWhile_not (fun name : Text => decide (name = "."))
    ((dir.splitOn '/').filter fun name => !name.isEmpty)
  unfold shownDirectory at h
  rw [h] at hhead
  simp at hhead

/-- The names that a listed path is written with. -/
theorem splitOn_joinWith_shown (dir : Text) (h : Place.isProper names = true) :
    (joinWith "/" (shownDirectory dir ++ names)).splitOn '/' = shownDirectory dir ++ names := by
  obtain ⟨hne, hnames⟩ := isProper_iff.mp h
  apply List.splitOn_intercalate
  · intro name hname
    rcases List.mem_append.mp hname with hname | hname
    · exact (of_mem_shownDirectory hname).2
    · exact (of_isFileName (hnames name hname)).2.1
  · exact List.append_ne_nil_of_right_ne_nil _ hne

/-- No name of a path that is shown is empty. -/
theorem ne_nil_of_mem_shown (dir : Text) (h : Place.isProper names = true) :
    ∀ name ∈ shownDirectory dir ++ names, name ≠ [] := by
  intro name hname
  rcases List.mem_append.mp hname with hname | hname
  · exact (of_mem_shownDirectory hname).1
  · exact (of_isFileName ((isProper_iff.mp h).2 name hname)).1

/-- A path that is shown is written name by name. -/
theorem written_shownPath (dir : Text) (h : Place.isProper names = true) :
    written (shownPath dir names) = shownDirectory dir ++ names := by
  have hjoined : ((joinWith "/" (shownDirectory dir ++ names)).splitOn '/').filter
      (fun name => !name.isEmpty) = shownDirectory dir ++ names := by
    rw [splitOn_joinWith_shown dir h, List.filter_eq_self]
    simpa using ne_nil_of_mem_shown dir h
  unfold written shownPath onlyIf
  split
  · -- The slash in front adds an empty name.
    change (([] ++ '/' :: joinWith "/" (shownDirectory dir ++ names)).splitOn '/').filter _ = _
    rw [splitOn_append_cons List.not_mem_nil, List.filter_cons_of_neg (by simp), hjoined]
  · exact hjoined

/-- A path that is shown is absolute just if its directory is. -/
theorem isAbsolute_shownPath (dir : Text) (h : Place.isProper names = true) :
    isAbsolute (shownPath dir names) = isAbsolute dir := by
  unfold shownPath onlyIf
  cases hdir : isAbsolute dir with
  | true => rfl
  | false =>
    rw [Bool.eq_false_iff]
    intro habsolute
    obtain ⟨rest, hrest⟩ := startsWith_iff.mp habsolute
    -- A slash in front would make the first name empty.
    have hsplit := splitOn_joinWith_shown dir h
    change joinWith "/" (shownDirectory dir ++ names) = [] ++ '/' :: rest at hrest
    rw [hrest, splitOn_append_cons List.not_mem_nil] at hsplit
    exact ne_nil_of_mem_shown dir h [] (hsplit ▸ List.mem_cons_self) rfl

/-- The components of a directory, as far as they are shown in front of the files below it. -/
def shownComponents (dir : Text) : List Component :=
  (if isAbsolute dir then [Component.root] else []) ++
    ((shownDirectory dir).filter fun name : Text => name ≠ ".").map Component.ofName

/-- The components of a path that is shown are those of the directory and then the names. -/
theorem components_shownPath (dir : Text) (h : Place.isProper names = true) :
    components (shownPath dir names) = shownComponents dir ++ names.map Component.named := by
  have hname : ∀ name ∈ names, name ≠ "." ∧ Component.ofName name = Component.named name := by
    intro name hname
    obtain ⟨-, -, hdot, hparent⟩ := of_isFileName ((isProper_iff.mp h).2 name hname)
    exact ⟨hdot, if_neg hparent⟩
  have hhead : (shownDirectory dir ++ names).head? ≠ some "." := by
    rw [List.head?_append]
    cases hshown : (shownDirectory dir).head? with
    | some first => simpa [hshown] using head?_shownDirectory_ne dir
    | none =>
      intro hfirst
      exact (hname _ (List.mem_of_head? (by simpa using hfirst))).1 rfl
  have hkept : names.filter (fun name : Text => decide (name ≠ ".")) = names :=
    List.filter_eq_self.mpr fun name hmem => by simpa using (hname name hmem).1
  unfold components shownComponents
  rw [isAbsolute_shownPath dir h, written_shownPath dir h, if_neg hhead, List.filter_append, hkept,
    List.map_append, List.append_assoc, List.map_congr_left fun name hmem => (hname name hmem).2]

/-- Names in order are components in order. -/
theorem lex_map_named (h : names < others) :
    List.Lex Component.Precedes (names.map Component.named) (others.map Component.named) := by
  induction h with
  | nil => exact List.Lex.nil
  | cons _ ih => exact List.Lex.cons ih
  | rel hst => exact List.Lex.rel (Or.inr ⟨_, _, rfl, rfl, hst⟩)

/-- Below one directory the names decide. -/
theorem precedes_shownPath (dir : Text) (hnames : Place.isProper names = true)
    (hothers : Place.isProper others = true) (h : names < others) :
    Precedes (shownPath dir names) (shownPath dir others) := by
  unfold Precedes
  rw [components_shownPath dir hnames, components_shownPath dir hothers]
  exact List.Lex.append_left _ (lex_map_named h) _

/-- The paths of a listing are in the order of their components. -/
theorem pairwise_precedes_picked (tree : FileTree) (dir : Text) (top : Place)
    (extensions : List Text) :
    ((sortNames (tree.picked top extensions)).map (shownPath dir)).Pairwise Precedes := by
  rw [List.pairwise_map]
  refine (ascendingNames_sortNames (tree.nodup_picked top extensions)).imp_of_mem ?_
  intro names others hnames hothers hlt
  apply precedes_shownPath dir
  · exact isProper_of_mem_picked ((perm_sortNames _).mem_iff.mp hnames)
  · exact isProper_of_mem_picked ((perm_sortNames _).mem_iff.mp hothers)
  · exact hlt

/-! ## Trees that differ in the order of their entries -/

/-- Another tree has the same entries, in whatever order. -/
structure SameEntries (other tree : FileTree) : Prop where
  nodes : other.nodes.Perm tree.nodes
  workingDirectory : other.workingDirectory = tree.workingDirectory

namespace SameEntries

variable {other : FileTree} (h : other.SameEntries tree)

include h

/-- Trees with the same entries have the same nodes. -/
theorem node?_eq (place : Place) : other.node? place = tree.node? place := by
  by_cases hplace : place = []
  · rw [hplace]
    rfl
  · apply Option.ext
    intro node
    rw [other.node?_eq_some_iff hplace, tree.node?_eq_some_iff hplace, h.nodes.mem_iff]

/-- Trees with the same entries have the same ways. -/
theorem follow_eq (place : Place) (path : List Text) :
    other.follow place path = tree.follow place path := by
  induction path generalizing place with
  | nil => rfl
  | cons name path ih => simp only [follow, h.node?_eq, ih]

/-- Trees with the same entries have the same directories. -/
theorem directory?_eq (dir : Text) : other.directory? dir = tree.directory? dir := by
  have hstart : other.startOf dir = tree.startOf dir := by
    unfold startOf
    rw [h.workingDirectory]
  have hresolve : other.resolve dir = tree.resolve dir := by
    simp only [resolve, hstart, h.follow_eq, h.node?_eq]
  simp only [directory?, hresolve, h.node?_eq]

/-- Trees with the same entries have the same files to pick. -/
theorem mem_picked_iff :
    names ∈ other.picked top extensions ↔ names ∈ tree.picked top extensions := by
  simp only [FileTree.mem_picked_iff, h.nodes.mem_iff]

end SameEntries

/-! ## The listing -/

/-- Extensions with the same members pick the same files. -/
theorem mem_picked_of_same_members (h : ∀ e, e ∈ others ↔ e ∈ extensions) :
    names ∈ tree.picked top others ↔ names ∈ tree.picked top extensions := by
  simp only [FileTree.mem_picked_iff, hasExtension_iff, h]

/-- A directory that is there is listed, in the order of paths and without repeats: just the files
below it whose name ends with a dot and one of the extensions. Searches may come upon what is there
in whatever order, a tree may hold its entries in another one, and extensions may be given in
another one and more than once, and the listing is the same. -/
theorem listing_complete_and_ascending (tree : FileTree) (dir : Text) (top : Place)
    (hdir : tree.directory? dir = some top) (extensions : List Text) :
    ∃ paths, tree.list dir extensions = .ok paths ∧
      paths.Pairwise Precedes ∧
      (∀ path, path ∈ paths ↔ ∃ names name e contents,
        tree.node? (top ++ names) = some (.file contents) ∧ names.getLast? = some name ∧
        e ∈ extensions ∧ ('.' :: e) <:+ name ∧ path = shownPath dir names) ∧
      (∀ others, (∀ e, e ∈ others ↔ e ∈ extensions) →
        tree.list dir others = .ok paths ∧
        ∀ found, tree.IsSearch top others found →
          tree.listFound dir top found others = paths) ∧
      ∀ other : FileTree, other.SameEntries tree → other.list dir extensions = .ok paths := by
  refine ⟨_, list_eq_ok_iff.mpr ⟨top, hdir, rfl⟩, pairwise_precedes_picked tree dir top extensions,
    ?_, ?_, ?_⟩
  · intro path
    rw [mem_list_iff (list_eq_ok_iff.mpr ⟨top, hdir, rfl⟩)]
    simp only [HasFile, hdir, Option.some.injEq, hasExtension_iff]
    constructor
    · rintro ⟨_, names, contents, rfl, hnode, ⟨name, hlast, e, he, hsuffix⟩, rfl⟩
      exact ⟨names, name, e, contents, hnode, hlast, he, hsuffix, rfl⟩
    · rintro ⟨names, name, e, contents, hnode, hlast, he, hsuffix, rfl⟩
      exact ⟨top, names, contents, rfl, hnode, ⟨name, hlast, e, he, hsuffix⟩, rfl⟩
  · intro others hothers
    have hsame : sortNames (tree.picked top others) = sortNames (tree.picked top extensions) :=
      sortNames_picked_eq fun names => mem_picked_of_same_members hothers
    constructor
    · exact list_eq_ok_iff.mpr ⟨top, hdir, by rw [hsame]⟩
    · intro found hfound
      rw [listFound_eq hfound, hsame]
  · intro other hother
    have hsame : sortNames (other.picked top extensions) =
        sortNames (tree.picked top extensions) :=
      sortNames_picked_eq fun names => hother.mem_picked_iff
    exact list_eq_ok_iff.mpr ⟨top, (hother.directory?_eq dir).trans hdir, by rw [hsame]⟩

/-- A directory with a test next to what it tests, a directory that is named like a file, and a
file that has nothing but the extension for a name. -/
def mixedDirectory : FileTree :=
  (FileTree.fresh ["work"])
    |>.put ["work", "d"] .directory
    |>.put ["work", "d", "a-b.ts"] (.file (.text []))
    |>.put ["work", "d", "a"] .directory
    |>.put ["work", "d", "a", "b.test.ts"] (.file (.text []))
    |>.put ["work", "d", "x.ts"] .directory
    |>.put ["work", "d", "x.ts", "notes.md"] (.file (.text []))
    |>.put ["work", "d", ".ts"] (.file (.text []))

/-- Searches in a directory that come upon what is last in the tree first. -/
def backwardSearch (tree : FileTree) (top : Place) (extension : Text) : List (List Text) :=
  (tree.entriesBelow top extension).reverse

/-- A directory with files and directories of similar names is listed in the order of components,
whatever the order of the extensions and however often one is given. -/
theorem mixed_directory_listed :
    mixedDirectory.directory? "./d" = some (["work", "d"] : List Text) ∧
      mixedDirectory.list "./d" ["ts", "test.ts"] =
        .ok ["d/.ts", "d/a/b.test.ts", "d/a-b.ts"] ∧
      mixedDirectory.list "./d" ["test.ts", "ts", "test.ts"] =
        .ok ["d/.ts", "d/a/b.test.ts", "d/a-b.ts"] ∧
      mixedDirectory.listFound "./d" ["work", "d"] (mixedDirectory.backwardSearch ["work", "d"])
        ["test.ts", "ts", "test.ts"] = ["d/.ts", "d/a/b.test.ts", "d/a-b.ts"] ∧
      ([("d/.ts" : Text), "d/a/b.test.ts", "d/a-b.ts"]).Pairwise Precedes := by
  have hdir : mixedDirectory.directory? "./d" = some (["work", "d"] : List Text) := by
    decide +kernel
  have hlist : mixedDirectory.list "./d" ["ts", "test.ts"] =
      .ok ["d/.ts", "d/a/b.test.ts", "d/a-b.ts"] := by
    rw [list_eq_insertionSort]
    decide +kernel
  obtain ⟨paths, hpaths, hascending, -, hothers, -⟩ :=
    listing_complete_and_ascending mixedDirectory "./d" ["work", "d"] hdir ["ts", "test.ts"]
  obtain rfl : paths = ["d/.ts", "d/a/b.test.ts", "d/a-b.ts"] :=
    Except.ok.inj (hpaths.symm.trans hlist)
  obtain ⟨hagain, hfound⟩ := hothers ["test.ts", "ts", "test.ts"] (by simp [or_comm])
  refine ⟨hdir, hlist, hagain, hfound _ ?_, hascending⟩
  intro e _ names
  exact List.mem_reverse.trans mem_entriesBelow_iff

end FileTree

end Concordance
