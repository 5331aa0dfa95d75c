import Concordance.Files.Listing
import Mathlib.Data.Char
import Mathlib.Data.List.Lex
import Mathlib.Data.List.Sort

set_option autoImplicit false

/-!
# The order of names

Paths are compared name by name, and names character by character. `sortNames` brings equal paths
together, and `dropRepeats`, which only looks at neighbours, leaves each of them once: what comes
out ascends strictly. Two lists that ascend strictly and have the same members are the same
(`eq_of_ascendingNames`), so the order and the number in which paths were found leave no trace.
-/

namespace Concordance

/-! ## Sorting -/

instance : Std.Total fun a b : List Text => ¬ b < a :=
  ⟨fun a b => by simpa only [not_lt] using le_total a b⟩

instance : IsTrans (List Text) fun a b => ¬ b < a :=
  ⟨fun a b c => by simpa only [not_lt] using le_trans⟩

instance : Std.Antisymm fun a b : List Text => ¬ b < a :=
  ⟨fun a b => by simpa only [not_lt] using le_antisymm⟩

/-- Sorting adds nothing and loses nothing. -/
theorem perm_sortNames (list : List (List Text)) : (sortNames list).Perm list :=
  List.mergeSort_perm list _

/-- After sorting, no names come before those in front of them. -/
theorem pairwise_sortNames (list : List (List Text)) :
    (sortNames list).Pairwise fun a b => ¬ b < a :=
  List.pairwise_mergeSort' _ list

/-- The listing with a sort that puts in one list of names after another. Unlike the merge sort, it
is evaluated by the kernel. -/
theorem FileTree.list_eq_insertionSort (tree : FileTree) (dir : Text) (extensions : List Text) :
    tree.list dir extensions = (tree.directory? dir).elim (.error ⟨dir⟩) fun top =>
      .ok ((dropRepeats (((extensions.flatMap (tree.entriesBelow top)).filter fun names =>
        tree.isFile (top ++ names)).insertionSort fun a b => ¬ b < a)).map (shownPath dir)) := by
  have hsort : sortNames = List.insertionSort fun a b => ¬ b < a := by
    funext list
    exact List.mergeSort_eq_insertionSort (fun a b => ¬ b < a) list
  unfold list listFound
  rw [hsort]
  cases tree.directory? dir with
  | none => rfl
  | some top => rfl

/-! ## Repeats -/

/-- Each list of names comes before all that follow it. -/
def AscendingNames (list : List (List Text)) : Prop := list.Pairwise fun a b => a < b

/-- Dropping repeats loses no name. -/
theorem mem_dropRepeats {names : List Text} {list : List (List Text)} :
    names ∈ dropRepeats list ↔ names ∈ list := by
  fun_induction dropRepeats list with
  | case1 => rfl
  | case2 => rfl
  | case3 other rest ih => simp [ih]
  | case4 first other rest hne ih => simp [ih]

/-- Among sorted names those that are equal are neighbours, so that each is left once. -/
theorem ascendingNames_dropRepeats {list : List (List Text)}
    (h : list.Pairwise fun a b => ¬ b < a) : AscendingNames (dropRepeats list) := by
  fun_induction dropRepeats list with
  | case1 => exact List.Pairwise.nil
  | case2 => exact List.pairwise_singleton _ _
  | case3 other rest ih => exact ih (List.pairwise_cons.mp h).2
  | case4 first other rest hne ih =>
    obtain ⟨hfirst, hrest⟩ := List.pairwise_cons.mp h
    refine List.pairwise_cons.mpr ⟨?_, ih hrest⟩
    have hlt : first < other :=
      lt_of_le_of_ne (not_lt.mp (hfirst other List.mem_cons_self)) hne
    intro names hnames
    -- All that is left comes after the neighbour or is the neighbour.
    rcases List.mem_cons.mp (mem_dropRepeats.mp hnames) with rfl | hmem
    · exact hlt
    · exact hlt.trans_le (not_lt.mp ((List.pairwise_cons.mp hrest).1 names hmem))

/-- In ascending order no name comes twice. -/
theorem AscendingNames.nodup {list : List (List Text)} (h : AscendingNames list) : list.Nodup :=
  h.imp fun hab => ne_of_lt hab

/-- A list in ascending order is determined by its members. -/
theorem eq_of_ascendingNames {list other : List (List Text)} (h : AscendingNames list)
    (hother : AscendingNames other) (hmem : ∀ names, names ∈ list ↔ names ∈ other) :
    list = other := by
  have hperm : list.Perm other := (List.perm_ext_iff_of_nodup h.nodup hother.nodup).mpr hmem
  refine hperm.eq_of_pairwise ?_ h hother
  intro a b _ _ hab hba
  exact absurd hba (List.lt_asymm hab)

/-- Sorting different names brings them into ascending order. -/
theorem ascendingNames_sortNames {list : List (List Text)} (h : list.Nodup) :
    AscendingNames (sortNames list) := by
  have hnodup : (sortNames list).Nodup := (perm_sortNames list).nodup_iff.mpr h
  refine ((pairwise_sortNames list).and hnodup).imp ?_
  rintro a b ⟨hab, hne⟩
  exact lt_of_le_of_ne (not_lt.mp hab) hne

end Concordance
