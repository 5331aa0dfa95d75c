import Concordance.Proofs.NameOrder

set_option autoImplicit false

/-!
# What a directory listing holds

`FileTree.list` names each file below a directory exactly once, if it has one of the extensions, and
names nothing else, although it searches the directory anew for each extension. The files are told
apart by the names that lead to them, and so are their paths: no name holds a slash, so the names
can be read off a path again. A path ends like the name of its file, and with it in the extension.
-/

namespace Concordance

namespace Text

/-- What stands behind a text is the rest after it. -/
theorem after?_eq_some_iff {lead t rest : Text} : after? lead t = some rest ↔ t = lead ++ rest := by
  induction lead generalizing t with
  | nil => simp [after?, eq_comm]
  | cons a lead ih =>
    cases t with
    | nil => simp [after?]
    | cons c t =>
      by_cases hac : a = c
      · subst hac
        simpa [after?] using ih
      · have hca : ¬ c = a := fun h => hac h.symm
        simp [after?, hac, hca]

/-- A text begins with another one just if it is that one and a rest. -/
theorem startsWith_iff {lead t : Text} : startsWith lead t = true ↔ ∃ rest, t = lead ++ rest := by
  unfold startsWith
  rw [Option.isSome_iff_exists]
  simp only [after?_eq_some_iff]

/-- A text ends with another one just if that is a suffix of it. -/
theorem endsWith_iff {tail t : Text} : endsWith tail t = true ↔ tail <:+ t := by
  unfold endsWith before?
  rw [Option.isSome_map, ← List.reverse_prefix]
  -- The end is searched for from behind, as the beginning of the reversed text.
  change startsWith tail.reverse t.reverse = true ↔ _
  rw [startsWith_iff]
  constructor
  · rintro ⟨rest, h⟩
    exact ⟨rest, h.symm⟩
  · rintro ⟨rest, h⟩
    exact ⟨rest, h.symm⟩

end Text

/-! ## Paths -/

/-- Names without slashes can be read off their joined form. -/
theorem joinWith_slash_inj {names others : List Text} (hnames : ∀ n ∈ names, '/' ∉ n)
    (hothers : ∀ n ∈ others, '/' ∉ n) (hne : names ≠ []) (hne' : others ≠ [])
    (h : Text.joinWith "/" names = Text.joinWith "/" others) : names = others := by
  have hsplit := List.splitOn_intercalate '/' hnames hne
  have hsplit' := List.splitOn_intercalate '/' hothers hne'
  unfold Text.joinWith at h
  change ['/'].intercalate names = ['/'].intercalate others at h
  rw [← hsplit, ← hsplit', h]

/-- The same names in front do not matter to whether joined names agree. -/
theorem joinWith_append_left_inj (sep : Text) (front : List Text) {names others : List Text}
    (hne : names ≠ []) (hne' : others ≠ [])
    (h : Text.joinWith sep (front ++ names) = Text.joinWith sep (front ++ others)) :
    Text.joinWith sep names = Text.joinWith sep others := by
  unfold Text.joinWith at h ⊢
  induction front with
  | nil => exact h
  | cons name front ih =>
    rw [List.cons_append, List.cons_append,
      List.intercalate_cons_of_ne_nil (by simp [hne]),
      List.intercalate_cons_of_ne_nil (by simp [hne'])] at h
    exact ih (List.append_cancel_left h)

/-- Joined names end with the last one. -/
theorem suffix_joinWith {sep name : Text} {names : List Text} (h : names.getLast? = some name) :
    name <:+ Text.joinWith sep names := by
  unfold Text.joinWith
  induction names with
  | nil => simp at h
  | cons first rest ih =>
    cases rest with
    | nil =>
      have : first = name := by simpa using h
      simp [this]
    | cons second rest =>
      rw [List.intercalate_cons_of_ne_nil (by simp)]
      have hrest : (second :: rest).getLast? = some name := by simpa using h
      exact (ih hrest).trans (List.suffix_append _ _)

namespace FileTree

open Text

/-- Different names below a directory have different paths. -/
theorem shownPath_inj {dir : Text} {names others : List Text} (hnames : ∀ n ∈ names, '/' ∉ n)
    (hothers : ∀ n ∈ others, '/' ∉ n) (hne : names ≠ []) (hne' : others ≠ [])
    (h : shownPath dir names = shownPath dir others) : names = others := by
  unfold shownPath at h
  have hjoined := joinWith_append_left_inj "/" (shownDirectory dir) hne hne'
    (List.append_cancel_left h)
  exact joinWith_slash_inj hnames hothers hne hne' hjoined

/-- A path that is shown ends with the last name. -/
theorem suffix_shownPath (dir : Text) {names : List Text} {name : Text}
    (h : names.getLast? = some name) : name <:+ shownPath dir names := by
  have hlast : (shownDirectory dir ++ names).getLast? = some name := by
    rw [List.getLast?_append, h, Option.some_or]
  exact (suffix_joinWith hlast).trans (List.suffix_append _ _)

/-! ## The files of a tree -/

/-- At a place that something can stand at, just that stands which the tree lists there. -/
theorem node?_eq_some_iff (tree : FileTree) {place : Place} {node : Node} (hne : place ≠ []) :
    tree.node? place = some node ↔ (place, node) ∈ tree.nodes := by
  have hplace : ¬ place.isEmpty = true := by simpa using hne
  unfold node?
  rw [if_neg hplace, Option.map_eq_some_iff]
  constructor
  · rintro ⟨n, hn, rfl⟩
    have hfst : n.1 = place := by simpa using List.find?_some hn
    rw [← hfst]
    exact List.mem_of_find?_eq_some hn
  · intro hmem
    obtain ⟨n, hn⟩ : ∃ n, tree.nodes.find? (fun n => n.1 = place) = some n := by
      rw [← Option.isSome_iff_exists, List.find?_isSome]
      exact ⟨(place, node), hmem, by simp⟩
    have hfst : n.1 = place := by simpa using List.find?_some hn
    have hsame : n = (place, node) :=
      List.inj_on_of_nodup_map tree.distinct (List.mem_of_find?_eq_some hn) hmem hfst
    exact ⟨n, hn, by rw [hsame]⟩

/-- A node is a file below a directory just if its place goes through the directory and it holds
contents. -/
theorem fileBelow?_eq_some_iff {top place : Place} {node : Node} {names : List Text}
    {contents : Contents} :
    fileBelow? top place node = some (names, contents) ↔
      place = top ++ names ∧ node = Node.file contents := by
  cases node with
  | directory => simp [fileBelow?]
  | file other =>
    by_cases hwithin : isWithin top place = true
    · obtain ⟨rest, rfl⟩ := List.isPrefixOf_iff_prefix.mp hwithin
      simp [fileBelow?, hwithin]
    · have hplace : place ≠ top ++ names := by
        rintro rfl
        exact hwithin (List.isPrefixOf_iff_prefix.mpr (List.prefix_append _ _))
      simp [fileBelow?, hwithin, hplace]

/-- The files below a directory are the file nodes whose places go through it. -/
theorem mem_filesBelow_iff (tree : FileTree) {top : Place} {names : List Text}
    {contents : Contents} :
    (names, contents) ∈ tree.filesBelow top ↔ (top ++ names, Node.file contents) ∈ tree.nodes := by
  unfold filesBelow
  simp only [List.mem_filterMap, fileBelow?_eq_some_iff]
  constructor
  · rintro ⟨⟨place, node⟩, hmem, rfl, rfl⟩
    exact hmem
  · intro hmem
    exact ⟨_, hmem, rfl, rfl⟩

/-- No two files below a directory are reached by the same names. -/
theorem nodup_filesBelow (tree : FileTree) (top : Place) :
    ((tree.filesBelow top).map Prod.fst).Nodup := by
  -- With the place of the directory in front, the names are places of the tree, in its order.
  have hplaces : ((tree.filesBelow top).map fun f => top ++ f.1).Sublist
      (tree.nodes.map Prod.fst) := by
    unfold filesBelow
    induction tree.nodes with
    | nil => exact List.Sublist.slnil
    | cons n rest ih =>
      rw [List.filterMap_cons]
      cases hf : fileBelow? top n.1 n.2 with
      | none => exact ih.cons n.1
      | some f =>
        have hplace : n.1 = top ++ f.1 := (fileBelow?_eq_some_iff.mp hf).1
        rw [List.map_cons, List.map_cons, hplace]
        exact ih.cons_cons _
  have hnodup := tree.distinct.sublist hplaces
  rw [show (fun f : List Text × Contents => top ++ f.1) = (top ++ ·) ∘ Prod.fst from rfl,
    ← List.map_map] at hnodup
  exact hnodup.of_map _

/-! ## The listing -/

/-- A name has one of the extensions just if it ends with a point and that extension. -/
theorem hasExtension_iff {extensions : List Text} {name : Text} :
    hasExtension extensions name = true ↔ ∃ e ∈ extensions, ('.' :: e) <:+ name := by
  simp only [hasExtension, List.any_eq_true, endsWith_iff]

/-- A file with one of the extensions stands below a directory, and the path is how it is shown. -/
def HasFile (tree : FileTree) (dir : Text) (extensions : List Text) (path : Text) : Prop :=
  ∃ top names contents, tree.directory? dir = some top ∧
    tree.node? (top ++ names) = some (.file contents) ∧
    (∃ name, names.getLast? = some name ∧ hasExtension extensions name = true) ∧
    path = shownPath dir names

/-- The names that lead to the files with one of the extensions, each once. -/
def picked (tree : FileTree) (top : Place) (extensions : List Text) : List (List Text) :=
  ((tree.filesBelow top).map Prod.fst).filter fun n =>
    (n.getLast?.map (hasExtension extensions)).getD false

/-- The files that are picked are those below the directory whose last name has an extension. -/
theorem mem_picked_iff {tree : FileTree} {top : Place} {extensions names : List Text} :
    names ∈ tree.picked top extensions ↔
      (∃ contents, (top ++ names, Node.file contents) ∈ tree.nodes) ∧
        ∃ name, names.getLast? = some name ∧ hasExtension extensions name = true := by
  unfold picked
  rw [List.mem_filter]
  have hfile : names ∈ (tree.filesBelow top).map Prod.fst ↔
      ∃ contents, (top ++ names, Node.file contents) ∈ tree.nodes := by
    simp only [List.mem_map, Prod.exists, exists_and_right, exists_eq_right, mem_filesBelow_iff]
  have hname : (names.getLast?.map (hasExtension extensions)).getD false = true ↔
      ∃ name, names.getLast? = some name ∧ hasExtension extensions name = true := by
    cases names.getLast? with
    | none => simp
    | some name => simp
  rw [hfile, hname]

/-- No file is picked twice. -/
theorem nodup_picked (tree : FileTree) (top : Place) (extensions : List Text) :
    (tree.picked top extensions).Nodup :=
  (tree.nodup_filesBelow top).sublist List.filter_sublist

/-- Something stands below a directory under a name with the extension. -/
def HasEntry (tree : FileTree) (top : Place) (extension : Text) (names : List Text) : Prop :=
  ∃ node, tree.node? (top ++ names) = some node ∧
    ∃ name, names.getLast? = some name ∧ ('.' :: extension) <:+ name

/-- A place below a directory that has a last name is not the root. -/
theorem ne_nil_of_getLast? {names : List Text} {name : Text} (h : names.getLast? = some name)
    (top : Place) : top ++ names ≠ [] := by
  intro hnil
  rw [(List.append_eq_nil_iff.mp hnil).2] at h
  simp at h

/-- The entries found for an extension are the ones that the tree has. -/
theorem mem_entriesBelow_iff {tree : FileTree} {top : Place} {extension : Text}
    {names : List Text} :
    names ∈ tree.entriesBelow top extension ↔ tree.HasEntry top extension names := by
  unfold entriesBelow HasEntry
  simp only [List.mem_filter, List.mem_map, Option.any_eq_true]
  constructor
  · rintro ⟨⟨place, ⟨⟨n, hn, rfl⟩, hwithin⟩, rfl⟩, name, hlast, hext⟩
    obtain ⟨rest, hplace⟩ := List.isPrefixOf_iff_prefix.mp hwithin
    rw [← hplace, List.drop_left] at hlast ⊢
    have hnode : tree.node? (top ++ rest) = some n.2 :=
      (tree.node?_eq_some_iff (ne_nil_of_getLast? hlast top)).mpr (hplace ▸ hn)
    exact ⟨n.2, hnode, name, hlast, by simpa [hasExtension_iff] using hext⟩
  · rintro ⟨node, hnode, name, hlast, hext⟩
    have hmem := (tree.node?_eq_some_iff (ne_nil_of_getLast? hlast top)).mp hnode
    refine ⟨⟨top ++ names, ⟨⟨_, hmem, rfl⟩, ?_⟩, List.drop_left⟩, name, hlast, ?_⟩
    · exact List.isPrefixOf_iff_prefix.mpr (List.prefix_append _ _)
    · simpa [hasExtension_iff] using hext

/-- A place is that of a file just if its node holds contents. -/
theorem isFile_iff {tree : FileTree} {place : Place} :
    tree.isFile place = true ↔ ∃ contents, tree.node? place = some (.file contents) := by
  unfold isFile
  cases tree.node? place with
  | none => simp
  | some node =>
    cases node with
    | file contents => simp
    | directory => simp

/-- A search comes upon just what stands below a directory under a name with the extension that it
is for, in whatever order and however often. -/
def IsSearch (tree : FileTree) (top : Place) (extensions : List Text)
    (found : Text → List (List Text)) : Prop :=
  ∀ e ∈ extensions, ∀ names, names ∈ found e ↔ tree.HasEntry top e names

/-- Looking for each extension in turn is a search of the directory. -/
theorem isSearch_entriesBelow (tree : FileTree) (top : Place) (extensions : List Text) :
    tree.IsSearch top extensions (tree.entriesBelow top) :=
  fun _ _ _ => mem_entriesBelow_iff

/-- The files among what the searches for all extensions come upon are those with one of them. -/
theorem IsSearch.mem_files_iff {tree : FileTree} {top : Place} {extensions names : List Text}
    {found : Text → List (List Text)} (h : tree.IsSearch top extensions found) :
    names ∈ (extensions.flatMap found).filter (fun names => tree.isFile (top ++ names)) ↔
      names ∈ tree.picked top extensions := by
  rw [List.mem_filter, List.mem_flatMap, isFile_iff, mem_picked_iff]
  constructor
  · rintro ⟨⟨e, he, hfound⟩, contents, hnode⟩
    obtain ⟨-, -, name, hlast, hsuffix⟩ := (h e he names).mp hfound
    have hmem := (tree.node?_eq_some_iff (ne_nil_of_getLast? hlast top)).mp hnode
    exact ⟨⟨contents, hmem⟩, name, hlast, hasExtension_iff.mpr ⟨e, he, hsuffix⟩⟩
  · rintro ⟨⟨contents, hmem⟩, name, hlast, hext⟩
    obtain ⟨e, he, hsuffix⟩ := hasExtension_iff.mp hext
    have hnode := (tree.node?_eq_some_iff (ne_nil_of_getLast? hlast top)).mpr hmem
    exact ⟨⟨e, he, (h e he names).mpr ⟨_, hnode, name, hlast, hsuffix⟩⟩, _, hnode⟩

/-- Whatever search finds the entries, the listing is the picked files in order. -/
theorem listFound_eq {tree : FileTree} {top : Place} {extensions : List Text}
    {found : Text → List (List Text)} (h : tree.IsSearch top extensions found) (dir : Text) :
    tree.listFound dir top found extensions =
      (sortNames (tree.picked top extensions)).map (shownPath dir) := by
  unfold listFound
  refine congrArg (List.map (shownPath dir)) (eq_of_ascendingNames ?_ ?_ ?_)
  · exact ascendingNames_dropRepeats (pairwise_sortNames _)
  · exact ascendingNames_sortNames (tree.nodup_picked top extensions)
  · intro names
    rw [mem_dropRepeats, (perm_sortNames _).mem_iff, (perm_sortNames _).mem_iff, h.mem_files_iff]

/-- A listing succeeds just on a directory, with the picked files in order. -/
theorem list_eq_ok_iff {tree : FileTree} {dir : Text} {extensions paths : List Text} :
    tree.list dir extensions = .ok paths ↔
      ∃ top, tree.directory? dir = some top ∧
        paths = (sortNames (tree.picked top extensions)).map (shownPath dir) := by
  unfold list
  cases tree.directory? dir with
  | none => simp
  | some top => simp [listFound_eq (tree.isSearch_entriesBelow top extensions), eq_comm]

/-- Directories with the same files to be listed have the same sorted names. -/
theorem sortNames_picked_eq {tree other : FileTree} {top : Place} {extensions others : List Text}
    (h : ∀ names, names ∈ other.picked top others ↔ names ∈ tree.picked top extensions) :
    sortNames (other.picked top others) = sortNames (tree.picked top extensions) := by
  apply eq_of_ascendingNames
  · exact ascendingNames_sortNames (other.nodup_picked top others)
  · exact ascendingNames_sortNames (tree.nodup_picked top extensions)
  · intro names
    rw [(perm_sortNames _).mem_iff, (perm_sortNames _).mem_iff, h]

/-- A file name is not empty, holds no slash, and is neither the directory itself nor the way up. -/
theorem of_isFileName {name : Text} (h : isFileName name = true) :
    name ≠ [] ∧ '/' ∉ name ∧ name ≠ "." ∧ name ≠ ".." := by
  simp only [isFileName, Bool.and_eq_true, List.all_eq_true, decide_eq_true_eq] at h
  obtain ⟨⟨⟨hne, hslash⟩, hdot⟩, hparent⟩ := h
  exact ⟨by simpa using hne, fun hmem => hslash _ hmem rfl, hdot, hparent⟩

/-- A place is proper just if it is not the root and consists of file names. -/
theorem isProper_iff {place : Place} :
    place.isProper = true ↔ place ≠ [] ∧ ∀ name ∈ place, isFileName name = true := by
  simp [Place.isProper]

/-- The names that lead to a listed file from the directory are those of a place. -/
theorem isProper_of_mem_picked {tree : FileTree} {top : Place} {extensions names : List Text}
    (h : names ∈ tree.picked top extensions) : Place.isProper names = true := by
  obtain ⟨⟨contents, hmem⟩, name, hlast, -⟩ := mem_picked_iff.mp h
  have hnames := (isProper_iff.mp (tree.proper _ hmem)).2
  refine isProper_iff.mpr ⟨?_, fun n hn => hnames n (List.mem_append_right top hn)⟩
  rintro rfl
  simp at hlast

/-- No name of a picked file holds a slash. -/
theorem slash_not_mem_of_mem_picked {tree : FileTree} {top : Place} {extensions names : List Text}
    (h : names ∈ tree.picked top extensions) : ∀ n ∈ names, '/' ∉ n := by
  intro n hn
  exact (of_isFileName ((isProper_iff.mp (isProper_of_mem_picked h)).2 n hn)).2.1

/-- A picked file has a name. -/
theorem ne_nil_of_mem_picked {tree : FileTree} {top : Place} {extensions names : List Text}
    (h : names ∈ tree.picked top extensions) : names ≠ [] :=
  (isProper_iff.mp (isProper_of_mem_picked h)).1

/-- A listing names no path twice. -/
theorem nodup_of_list {tree : FileTree} {dir : Text} {extensions paths : List Text}
    (h : tree.list dir extensions = .ok paths) : paths.Nodup := by
  obtain ⟨top, -, rfl⟩ := list_eq_ok_iff.mp h
  have hsorted := (perm_sortNames _).nodup_iff.mpr (tree.nodup_picked top extensions)
  refine List.Nodup.map_on ?_ hsorted
  intro names hnames others hothers heq
  have hnames := (perm_sortNames _).mem_iff.mp hnames
  have hothers := (perm_sortNames _).mem_iff.mp hothers
  exact shownPath_inj (slash_not_mem_of_mem_picked hnames) (slash_not_mem_of_mem_picked hothers)
    (ne_nil_of_mem_picked hnames) (ne_nil_of_mem_picked hothers) heq

/-- A listing names the files with one of the extensions and nothing else. -/
theorem mem_list_iff {tree : FileTree} {dir : Text} {extensions paths : List Text}
    (h : tree.list dir extensions = .ok paths) (path : Text) :
    path ∈ paths ↔ tree.HasFile dir extensions path := by
  obtain ⟨top, htop, rfl⟩ := list_eq_ok_iff.mp h
  rw [List.mem_map]
  constructor
  · rintro ⟨names, hnames, rfl⟩
    have hpicked := (perm_sortNames _).mem_iff.mp hnames
    obtain ⟨⟨contents, hmem⟩, hname⟩ := mem_picked_iff.mp hpicked
    have hplace : top ++ names ≠ [] := by simp [ne_nil_of_mem_picked hpicked]
    exact ⟨top, names, contents, htop, (tree.node?_eq_some_iff hplace).mpr hmem, hname, rfl⟩
  · rintro ⟨top', names, contents, htop', hnode, hname, rfl⟩
    obtain rfl : top' = top := by
      rw [htop] at htop'
      exact (Option.some.inj htop').symm
    obtain ⟨name, hlast, hext⟩ := hname
    have hmem := (tree.node?_eq_some_iff (ne_nil_of_getLast? hlast top')).mp hnode
    refine ⟨names, (perm_sortNames _).mem_iff.mpr ?_, rfl⟩
    exact mem_picked_iff.mpr ⟨⟨contents, hmem⟩, name, hlast, hext⟩

/-- The path of a file with an extension ends in it. -/
theorem HasFile.exists_suffix {tree : FileTree} {dir : Text} {extensions : List Text} {path : Text}
    (h : tree.HasFile dir extensions path) : ∃ e ∈ extensions, ('.' :: e) <:+ path := by
  obtain ⟨top, names, contents, -, -, ⟨name, hlast, hext⟩, rfl⟩ := h
  obtain ⟨e, he, hsuffix⟩ := hasExtension_iff.mp hext
  exact ⟨e, he, hsuffix.trans (suffix_shownPath dir hlast)⟩

end FileTree

end Concordance
