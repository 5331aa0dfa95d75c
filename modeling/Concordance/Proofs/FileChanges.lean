import Concordance.Proofs.Layout
import Concordance.Proofs.Listing

set_option autoImplicit false

/-!
# What file operations leave

Putting something at a place changes that place only. Making directories goes from a tree to one
that has all that the first has and besides only new directories, also where it stops on the way.
Names lead in the new tree where they led before, as long as directories stay directories. A path
joined to a directory follows the names of both, one after the other.
-/

namespace Concordance

open Text

/-! ## Joined paths -/

namespace Path

variable {path : Text}

/-- A relative path is joined behind a slash, unless there is nothing to join it to. -/
theorem join_cases (hpath : isAbsolute path = false) (dir : Text) :
    dir = [] ∧ join dir path = path ∨
      ∃ front, join dir path = front ++ '/' :: path ∧ (dir = front ∨ dir = front ++ ['/']) := by
  unfold join
  rw [if_neg (by simp [hpath])]
  by_cases hdir : dir = []
  · exact Or.inl ⟨hdir, if_pos (by simp [hdir])⟩
  · rw [if_neg (by simpa using hdir)]
    refine Or.inr ?_
    by_cases hslash : endsWith "/" dir = true
    · obtain ⟨front, hfront⟩ := endsWith_iff.mp hslash
      rw [if_pos hslash, ← hfront]
      exact ⟨front, by simp, Or.inr rfl⟩
    · rw [if_neg hslash]
      exact ⟨dir, rfl, Or.inl rfl⟩

/-- The names of a path are those before a slash and those behind it. -/
@[simp] theorem names_append_cons (front path : Text) :
    names (front ++ '/' :: path) = names front ++ names path := by
  unfold names List.splitOn
  rw [List.splitOnP_append_cons front path (by simp), List.filter_append]

/-- The names of a joined path are those of the directory and those of the path. -/
theorem names_join (hpath : isAbsolute path = false) (dir : Text) :
    names (join dir path) = names dir ++ names path := by
  obtain ⟨rfl, hjoin⟩ | ⟨front, hjoin, rfl | rfl⟩ := join_cases hpath dir
  · rw [hjoin]
    rfl
  · simp [hjoin]
  · simp [hjoin, show names [] = [] from rfl]

/-- Whether a path is absolute is seen at its first character. -/
theorem isAbsolute_cons_append (c : Char) (s t : Text) :
    isAbsolute (c :: s ++ t) = isAbsolute (c :: s) := by
  rw [Bool.eq_iff_iff]
  simp [isAbsolute, startsWith_iff, List.cons_append]

/-- A joined path is absolute just if the directory is. -/
theorem isAbsolute_join (hpath : isAbsolute path = false) (dir : Text) :
    isAbsolute (join dir path) = isAbsolute dir := by
  cases dir with
  | nil =>
    have hjoin : join [] path = path := by simp [join]
    rw [hjoin, hpath]
    rfl
  | cons c dir =>
    obtain ⟨hdir, -⟩ | ⟨front, hjoin, hfront | hfront⟩ := join_cases hpath (c :: dir)
    · cases hdir
    · rw [hjoin, ← hfront, isAbsolute_cons_append]
    · have hsplit : front ++ '/' :: path = c :: dir ++ path := by simp [hfront]
      rw [hjoin, hsplit, isAbsolute_cons_append]

/-- A joined path ends in a dot just where the path that is joined does. -/
theorem endsInDot_join (hpath : isAbsolute path = false) (hnames : names path ≠ [])
    (dir : Text) : endsInDot (join dir path) = endsInDot path := by
  obtain ⟨-, hjoin⟩ | ⟨front, hjoin, -⟩ := join_cases hpath dir
  · rw [hjoin]
  · have hpieces : ((path.splitOn '/').filter fun name => !name.isEmpty) ≠ [] := by
      obtain ⟨name, hname⟩ := List.exists_mem_of_ne_nil _ hnames
      obtain ⟨hpiece, hmoves⟩ := List.mem_filter.mp hname
      exact List.ne_nil_of_mem (List.mem_filter.mpr ⟨hpiece, (Bool.and_eq_true_iff.mp hmoves).1⟩)
    unfold endsInDot List.splitOn at *
    rw [hjoin, List.splitOnP_append_cons front path (by simp), List.filter_append,
      List.getLast?_append_of_ne_nil _ hpieces]

/-- Names on a path are names of files, but for the one that leads to the parent. -/
theorem of_mem_names {name : Text} (h : name ∈ names path) :
    name = ".." ∨ isFileName name = true := by
  obtain ⟨hpiece, hmoves⟩ := List.mem_filter.mp h
  simp only [Bool.and_eq_true, decide_eq_true_eq] at hmoves
  by_cases hparent : name = ".."
  · exact Or.inl hparent
  · have hslash : ∀ c ∈ name, c ≠ '/' := fun c hc h =>
      not_mem_of_mem_splitOn hpiece (h ▸ hc)
    refine Or.inr ?_
    simp only [isFileName, Bool.and_eq_true, List.all_eq_true, decide_eq_true_eq]
    exact ⟨⟨⟨hmoves.1, hslash⟩, hmoves.2⟩, hparent⟩

end Path

namespace FileTree

variable {tree other : FileTree} {place start : Place} {names : List Text} {path : Text}

/-! ## Where names lead -/

/-- A way is followed name by name. -/
theorem follow_append (tree : FileTree) (start : Place) (names others : List Text) :
    tree.follow start (names ++ others) =
      (tree.follow start names).bind fun place => tree.follow place others := by
  induction names generalizing start with
  | nil => rfl
  | cons name names ih =>
    simp only [List.cons_append, follow]
    cases tree.node? start with
    | none => rfl
    | some node =>
      cases node with
      | file contents => rfl
      | directory =>
        by_cases hparent : name = ".."
        · simpa only [if_pos hparent] using ih start.dropLast
        · simpa only [if_neg hparent] using ih (start ++ [name])

/-- Following proper names from a proper place leads to a proper place. -/
theorem isFileName_of_follow (hstart : ∀ name ∈ start, isFileName name = true)
    (hnames : ∀ name ∈ names, name = ".." ∨ isFileName name = true)
    (h : tree.follow start names = .ok place) : ∀ name ∈ place, isFileName name = true := by
  induction names generalizing start with
  | nil =>
    cases h
    exact hstart
  | cons name names ih =>
    obtain ⟨hname, hrest⟩ := List.forall_mem_cons.mp hnames
    simp only [follow] at h
    split at h
    · split at h
      · exact ih (fun n hn => hstart n (List.dropLast_subset _ hn)) hrest h
      · next hparent =>
        refine ih ?_ hrest h
        intro n hn
        rcases List.mem_append.mp hn with hn | hn
        · exact hstart n hn
        · rw [List.mem_singleton.mp hn]
          exact hname.resolve_left hparent
    · cases h
    · cases h

/-- The place where a path starts has proper names. -/
theorem isFileName_of_mem_startOf (tree : FileTree) (path : Text) :
    ∀ name ∈ tree.startOf path, isFileName name = true := by
  unfold startOf
  split
  · exact fun _ hname => nomatch hname
  · exact List.all_eq_true.mp tree.workingNames

/-- A path leads to where its names lead, and if it asks for a directory, one must be there. -/
theorem resolve_eq_ok_iff :
    tree.resolve path = .ok place ↔
      path ≠ [] ∧ tree.follow (tree.startOf path) (Path.names path) = .ok place ∧
        (asksForDirectory path = true → tree.node? place = some .directory) := by
  unfold resolve
  by_cases hpath : path = []
  · simp [hpath]
  · rw [if_neg (by simpa using hpath)]
    cases tree.follow (tree.startOf path) (Path.names path) with
    | error e => simp [bind, Except.bind]
    | ok found =>
      by_cases hasks : asksForDirectory path = true
      · simp only [bind, Except.bind, if_pos hasks]
        rcases hnode : tree.node? found with _ | _ | _ <;> grind
      · simp [bind, Except.bind, hasks, hpath]

/-- A way through directories stays open in a tree that keeps them. -/
theorem follow_of_directories
    (hkeeps : ∀ p, tree.node? p = some .directory → other.node? p = some .directory)
    (h : tree.follow start names = .ok place) : other.follow start names = .ok place := by
  induction names generalizing start with
  | nil => exact h
  | cons name names ih =>
    simp only [follow] at h ⊢
    split at h
    · next hdir =>
      rw [hkeeps start hdir]
      split at h
      · next hparent => exact (if_pos hparent).trans (ih h)
      · next hparent => exact (if_neg hparent).trans (ih h)
    · cases h
    · cases h

/-- Trees with the same working directory start paths at the same place. -/
theorem startOf_eq (h : other.workingDirectory = tree.workingDirectory) (path : Text) :
    other.startOf path = tree.startOf path := by
  unfold startOf
  rw [h]

/-- A joined path starts where its directory does. -/
theorem startOf_join (hpath : Path.isAbsolute path = false) (tree : FileTree) (dir : Text) :
    tree.startOf (Path.join dir path) = tree.startOf dir := by
  unfold startOf
  rw [Path.isAbsolute_join hpath]

/-- A path leads in another tree to where it leads in this one, if directories stay directories. -/
theorem resolve_of_directories (hwork : other.workingDirectory = tree.workingDirectory)
    (hkeeps : ∀ p, tree.node? p = some .directory → other.node? p = some .directory)
    (h : tree.resolve path = .ok place) : other.resolve path = .ok place := by
  obtain ⟨hpath, hfollow, hasks⟩ := resolve_eq_ok_iff.mp h
  refine resolve_eq_ok_iff.mpr ⟨hpath, ?_, fun h => hkeeps place (hasks h)⟩
  rw [startOf_eq hwork]
  exact follow_of_directories hkeeps hfollow

/-- A path is that of a directory just if it leads to a directory node. -/
theorem directory?_eq_some_iff :
    tree.directory? path = some place ↔
      tree.resolve path = .ok place ∧ tree.node? place = some .directory := by
  unfold directory?
  cases tree.resolve path with
  | error e => simp
  | ok found => rcases hnode : tree.node? found with _ | _ | _ <;> grind

/-- A file that a path leads to is read. -/
theorem readText_of_resolve {t : Text} (hplace : tree.resolve path = .ok place)
    (hnode : tree.node? place = some (.file (.text t))) : tree.readText path = .ok t := by
  simp [readText, lookup, hplace, hnode, bind, Except.bind]

/-- A path that does not lead to a directory leads to a proper place. -/
theorem isProper_of_resolve (h : tree.resolve path = .ok place)
    (hplace : tree.node? place ≠ some .directory) : place.isProper = true := by
  obtain ⟨-, hfollow, -⟩ := resolve_eq_ok_iff.mp h
  refine isProper_iff.mpr ⟨?_, ?_⟩
  · rintro rfl
    exact hplace rfl
  · exact isFileName_of_follow (tree.isFileName_of_mem_startOf path)
      (fun _ hname => Path.of_mem_names hname) hfollow

/-! ## What stands where after something is put at a place -/

/-- Putting a node leaves the working directory alone. -/
@[simp] theorem workingDirectory_put (tree : FileTree) (place : Place) (node : Node) :
    (tree.put place node).workingDirectory = tree.workingDirectory := by
  unfold put
  split <;> rfl

/-- The nodes after a put are the new one and those at other places. -/
theorem mem_nodes_put (tree : FileTree) (hplace : place.isProper = true) (node : Node) {p : Place}
    {n : Node} :
    (p, n) ∈ (tree.put place node).nodes ↔
      (p, n) ∈ tree.nodes ∧ p ≠ place ∨ p = place ∧ n = node := by
  unfold put
  rw [dif_pos hplace]
  simp [restrict]

/-- After a put its place has the new node, and all others what they had. -/
theorem node?_put (tree : FileTree) (hplace : place.isProper = true) (node : Node) (p : Place) :
    (tree.put place node).node? p = if p = place then some node else tree.node? p := by
  by_cases hp : p = []
  · have hne : p ≠ place := by
      rintro rfl
      exact (isProper_iff.mp hplace).1 hp
    rw [if_neg hne, hp]
    rfl
  · apply Option.ext
    intro n
    rw [node?_eq_some_iff _ hp, tree.mem_nodes_put hplace]
    by_cases hne : p = place
    · simp [hne, eq_comm]
    · rw [if_neg hne, node?_eq_some_iff _ hp]
      simp [hne]

/-- A file is written at one place, which the path still leads to, and nothing else changes. -/
theorem of_writeFile {contents : Contents} (h : tree.writeFile path contents = .ok other) :
    ∃ place, other.resolve path = .ok place ∧
      ∀ p, other.node? p = if p = place then some (.file contents) else tree.node? p := by
  unfold writeFile at h
  cases hplace : tree.resolve path with
  | error e =>
    rw [hplace] at h
    cases h
  | ok place =>
    have hfile : tree.node? place ≠ some .directory := by
      intro hdir
      simp [hplace, hdir, bind, Except.bind] at h
    have hput : tree.put place (.file contents) = other := by
      simp only [hplace, bind, Except.bind] at h
      exact Except.ok.inj h
    subst hput
    have hnode := tree.node?_put (isProper_of_resolve hplace hfile) (.file contents)
    refine ⟨place, resolve_of_directories (tree.workingDirectory_put _ _) ?_ hplace, hnode⟩
    intro p hp
    rw [hnode, if_neg (fun heq : p = place => hfile (heq ▸ hp)), hp]

/-- Writing succeeds just where there is no directory. -/
theorem exists_writeFile_iff (contents : Contents) (h : tree.resolve path = .ok place) :
    (∃ left, tree.writeFile path contents = .ok left) ↔ tree.node? place ≠ some .directory := by
  rcases hnode : tree.node? place with _ | _ | _ <;>
    simp [writeFile, h, hnode, bind, Except.bind]

/-! ## Writing over a file -/

section Overwriting

variable (hfile : tree.isFile place = true) (contents : Contents)
include hfile

/-- A file that is there stands at a proper place. -/
theorem isProper_of_isFile : place.isProper = true := by
  obtain ⟨old, hold⟩ := isFile_iff.mp hfile
  have hne : place ≠ [] := by
    rintro rfl
    cases hold
  exact tree.proper _ ((tree.node?_eq_some_iff hne).mp hold)

/-- Other contents for a file change what stands at its place, and nothing else. -/
theorem node?_put_file (p : Place) :
    (tree.put place (.file contents)).node? p =
      if p = place then some (.file contents) else tree.node? p :=
  tree.node?_put (isProper_of_isFile hfile) _ p

/-- Paths lead where they led before the file got other contents. -/
theorem resolve_put_file {p : Place} (h : tree.resolve path = .ok p) :
    (tree.put place (.file contents)).resolve path = .ok p := by
  refine resolve_of_directories (tree.workingDirectory_put _ _) (fun q hq => ?_) h
  have hne : q ≠ place := by
    rintro rfl
    obtain ⟨old, hold⟩ := isFile_iff.mp hfile
    rw [hold] at hq
    cases hq
  rw [node?_put_file hfile, if_neg hne, hq]

/-- What a file holds is not seen in the listing of a directory. -/
theorem list_put_file {dir : Text} {extensions paths : List Text}
    (h : tree.list dir extensions = .ok paths) :
    (tree.put place (.file contents)).list dir extensions = .ok paths := by
  obtain ⟨top, hdir, rfl⟩ := list_eq_ok_iff.mp h
  obtain ⟨hresolve, hnode⟩ := directory?_eq_some_iff.mp hdir
  obtain ⟨old, hold⟩ := isFile_iff.mp hfile
  have hplace := isProper_of_isFile hfile
  refine list_eq_ok_iff.mpr ⟨top, directory?_eq_some_iff.mpr ⟨?_, ?_⟩, ?_⟩
  · exact resolve_put_file hfile contents hresolve
  · have hne : top ≠ place := by
      rintro rfl
      rw [hold] at hnode
      cases hnode
    rw [node?_put_file hfile, if_neg hne, hnode]
  · congr 1
    refine (sortNames_picked_eq fun names => ?_).symm
    simp only [mem_picked_iff, tree.mem_nodes_put hplace]
    refine and_congr_left fun _ => ?_
    by_cases hnames : top ++ names = place
    · have hmem : (place, Node.file old) ∈ tree.nodes :=
        (tree.node?_eq_some_iff (isProper_iff.mp hplace).1).mp hold
      simp only [hnames]
      exact iff_of_true ⟨contents, Or.inr ⟨trivial, rfl⟩⟩ ⟨old, hmem⟩
    · simp [hnames]

end Overwriting

/-! ## Trees with new directories -/

/-- In two trees stands the same file at a place, or in none of them a file. -/
def SameFileAt (tree other : FileTree) (place : Place) : Prop :=
  ∀ contents, other.node? place = some (.file contents) ↔ tree.node? place = some (.file contents)

/-- Another tree has what this one has, and besides only new directories. -/
structure AddsDirectories (tree other : FileTree) : Prop where
  workingDirectory : other.workingDirectory = tree.workingDirectory
  node? : ∀ place, other.node? place = tree.node? place ∨
    tree.node? place = none ∧ other.node? place = some .directory

namespace AddsDirectories

/-- A tree adds no directories to itself. -/
theorem refl (tree : FileTree) : tree.AddsDirectories tree := ⟨rfl, fun _ => Or.inl rfl⟩

/-- Directories that are added to a tree with more directories are added to the tree. -/
theorem trans {third : FileTree} (h : tree.AddsDirectories other)
    (h' : other.AddsDirectories third) : tree.AddsDirectories third := by
  refine ⟨h'.workingDirectory.trans h.workingDirectory, fun place => ?_⟩
  rcases h.node? place with hsame | ⟨hnone, hdir⟩
  · rw [← hsame]
    exact h'.node? place
  · rcases h'.node? place with hsame | ⟨hnone', -⟩
    · exact Or.inr ⟨hnone, hsame.trans hdir⟩
    · rw [hdir] at hnone'
      cases hnone'

/-- New directories change no file. -/
theorem sameFileAt (h : tree.AddsDirectories other) (place : Place) :
    tree.SameFileAt other place := by
  intro contents
  rcases h.node? place with hsame | ⟨hnone, hdir⟩
  · rw [hsame]
  · simp [hnone, hdir]

/-- A directory stays one. -/
theorem keeps_directory (h : tree.AddsDirectories other) (place : Place)
    (hplace : tree.node? place = some .directory) : other.node? place = some .directory := by
  rcases h.node? place with hsame | ⟨-, hdir⟩
  · rw [hsame, hplace]
  · exact hdir

end AddsDirectories

/-- A directory put where nothing was is added. -/
theorem addsDirectories_put (h : tree.node? place = none) :
    tree.AddsDirectories (tree.put place .directory) := by
  by_cases hplace : place.isProper = true
  · refine ⟨tree.workingDirectory_put _ _, fun p => ?_⟩
    rw [tree.node?_put hplace]
    by_cases hp : p = place
    · exact Or.inr ⟨hp ▸ h, if_pos hp⟩
    · exact Or.inl (if_neg hp)
  · rw [put, dif_neg hplace]
    exact AddsDirectories.refl tree

/-- Making a directory adds it and nothing else. -/
theorem addsDirectories_of_makeDirectory {dotted : Bool}
    (h : tree.makeDirectory start dotted names = .ok other) : tree.AddsDirectories other := by
  unfold makeDirectory at h
  cases hplace : tree.follow start names with
  | error e =>
    rw [hplace] at h
    cases h
  | ok place =>
    simp only [hplace, bind, Except.bind] at h
    split at h
    · cases h
    · cases h
    · next hnone =>
      split at h
      · cases h
      · split at h
        · rw [← Except.ok.inj h]
          exact addsDirectories_put hnone
        · cases h
        · cases h

/-- Ensuring a directory adds it at most. -/
theorem addsDirectories_of_ensureDirectory {dotted : Bool}
    (h : tree.ensureDirectory start dotted names = .ok other) : tree.AddsDirectories other := by
  unfold ensureDirectory at h
  split at h
  · next hmade =>
    rw [← Except.ok.inj h]
    exact addsDirectories_of_makeDirectory hmade
  · split at h
    · rw [← Except.ok.inj h]
      exact AddsDirectories.refl tree
    · cases h

/-- The tree that an operation of several steps leaves, whether it comes to its end or not. -/
def leftBy : Except Interruption FileTree → FileTree
  | .ok tree => tree
  | .error stop => stop.tree

/-- Making directories along a way adds directories at most, even where it fails. -/
theorem addsDirectories_makeAlong (tree : FileTree) (start : Place) (dotted : Bool)
    (lastFirst : List Text) :
    tree.AddsDirectories (leftBy (tree.makeAlong start dotted lastFirst)) := by
  induction lastFirst generalizing dotted with
  | nil => exact AddsDirectories.refl tree
  | cons name parents ih =>
    unfold makeAlong
    split
    · next hmade => exact addsDirectories_of_ensureDirectory hmade
    · -- the way is missing: it is made first, and what has been made of it stays
      have hway := ih false
      cases hparents : tree.makeAlong start false parents with
      | error stop =>
        rw [hparents] at hway
        exact hway
      | ok made =>
        rw [hparents] at hway
        simp only [bind, Except.bind]
        cases hmade : made.ensureDirectory start dotted (name :: parents).reverse with
        | error e => exact hway
        | ok last => exact hway.trans (addsDirectories_of_ensureDirectory hmade)
    · exact AddsDirectories.refl tree

/-- Making the directories of a path adds directories at most, even where it fails. -/
theorem addsDirectories_makeDirectories (tree : FileTree) (path : Text) :
    tree.AddsDirectories (leftBy (tree.makeDirectories path)) :=
  tree.addsDirectories_makeAlong _ _ _

/-! ## One directory below another -/

section Below

variable {top : Place} {name : Text}

/-- A name below a directory leads to the place of that name. -/
theorem follow_below (hname : name ≠ "..") (hfollow : tree.follow start names = .ok top)
    (htop : tree.node? top = some .directory) :
    tree.follow start (names ++ [name]) = .ok (top ++ [name]) := by
  rw [follow_append, hfollow]
  simp only [Except.bind, follow, htop, if_neg hname]

/-- Nothing but the last directory is tried unless something on the way is missing. -/
theorem makeDirectories_eq (hnames : Path.names path = names ++ [name])
    (hway : tree.ensureDirectory (tree.startOf path) (Path.endsInDot path) (names ++ [name]) ≠
      .error .notFound) :
    tree.makeDirectories path =
      (tree.ensureDirectory (tree.startOf path) (Path.endsInDot path) (names ++ [name])).mapError
        fun e => ⟨tree, e⟩ := by
  have hreverse : (name :: names.reverse).reverse = names ++ [name] := by simp
  rw [makeDirectories, hnames, List.reverse_append, List.reverse_singleton, List.singleton_append,
    makeAlong, hreverse]
  split
  · next hmade => rw [hmade]; rfl
  · next hmissing => exact absurd hmissing hway
  · next hstop => rw [hstop]; rfl

variable (hnames : Path.names path = names ++ [name]) (hname : isFileName name = true)
  (hdot : Path.endsInDot path = false) (hfollow : tree.follow (tree.startOf path) names = .ok top)
  (htop : tree.node? top = some .directory)

include hnames hname hdot hfollow htop

/-- Where no file stands in its way, a directory is made below one that is there, and nothing else
changes. -/
theorem makeDirectories_below
    (hfile : ∀ contents, tree.node? (top ++ [name]) ≠ some (.file contents)) :
    ∃ made, tree.makeDirectories path = .ok made ∧
      made.node? (top ++ [name]) = some .directory ∧
      ∀ p, p ≠ top ++ [name] → made.node? p = tree.node? p := by
  have hplace := follow_below (of_isFileName hname).2.2.2 hfollow htop
  rcases hnode : tree.node? (top ++ [name]) with _ | contents | _
  · have hproper : Place.isProper (top ++ [name]) = true := by
      refine isProper_iff.mpr ⟨by simp, isFileName_of_follow ?_ ?_ hplace⟩
      · exact tree.isFileName_of_mem_startOf path
      · exact fun n hn => Path.of_mem_names (hnames ▸ hn)
    have hensure : tree.ensureDirectory (tree.startOf path) (Path.endsInDot path)
        (names ++ [name]) = .ok (tree.put (top ++ [name]) .directory) := by
      simp [ensureDirectory, makeDirectory, hplace, hnode, hdot, htop, bind, Except.bind]
    refine ⟨tree.put (top ++ [name]) .directory, ?_, ?_, ?_⟩
    · rw [makeDirectories_eq hnames (by simp [hensure]), hensure]
      rfl
    · rw [tree.node?_put hproper, if_pos rfl]
    · intro p hp
      rw [tree.node?_put hproper, if_neg hp]
  · exact absurd hnode (hfile contents)
  · have hensure : tree.ensureDirectory (tree.startOf path) (Path.endsInDot path)
        (names ++ [name]) = .ok tree := by
      simp [ensureDirectory, makeDirectory, leadsToDirectory, hplace, hnode, bind, Except.bind]
    refine ⟨tree, ?_, hnode, fun _ _ => rfl⟩
    rw [makeDirectories_eq hnames (by simp [hensure]), hensure]
    rfl

/-- No directories are made where a file is in the way. -/
theorem makeDirectories_of_file {contents : Contents}
    (hfile : tree.node? (top ++ [name]) = some (.file contents)) :
    tree.makeDirectories path = .error ⟨tree, .alreadyExists⟩ := by
  have hplace := follow_below (of_isFileName hname).2.2.2 hfollow htop
  have hensure : tree.ensureDirectory (tree.startOf path) (Path.endsInDot path)
      (names ++ [name]) = .error .alreadyExists := by
    simp [ensureDirectory, makeDirectory, leadsToDirectory, hplace, hfile, hdot, bind, Except.bind]
  rw [makeDirectories_eq hnames (by simp [hensure]), hensure]
  rfl

end Below

end FileTree

end Concordance
