import Concordance.Dict
import Mathlib.Data.Char
import Mathlib.Data.List.Lex
import Mathlib.Data.List.Nodup
import Mathlib.Data.List.Perm.Subperm

set_option autoImplicit false

/-!
# Insertions into dictionaries

An insertion is found by the next look-up, the last insertion of a key counts, and a key behind all
others goes to the end. So a dictionary is built up from its own entries again.
-/

namespace Concordance

namespace Dict

variable {α : Type} {k : Text} {v w : α} {entries : List (Text × α)}

/-- A dictionary is its entries. -/
theorem eq_of_entries_eq {d d' : Dict α} (h : d.entries = d'.entries) : d = d' := by
  cases d
  cases d'
  cases h
  rfl

/-- A key behind all others is inserted at the end. -/
theorem insertEntry_of_forall_lt (h : ∀ e ∈ entries, e.1 < k) :
    insertEntry k v entries = entries ++ [(k, v)] := by
  induction entries with
  | nil => rfl
  | cons e rest ih =>
    have he := h e List.mem_cons_self
    have hrest := ih fun e he => h e (List.mem_cons_of_mem _ he)
    simp [insertEntry, List.lt_asymm he, ne_of_gt he, hrest]

/-- A later value for a key replaces an earlier one. -/
theorem insertEntry_insertEntry (k : Text) (v w : α) (entries : List (Text × α)) :
    insertEntry k w (insertEntry k v entries) = insertEntry k w entries := by
  induction entries with
  | nil => simp [insertEntry]
  | cons e rest ih =>
    by_cases hlt : k < e.1
    · simp [insertEntry, hlt]
    · by_cases hkey : k = e.1
      · simp [insertEntry, hkey]
      · simp [insertEntry, hlt, hkey, ih]

/-- The value that is inserted is found. -/
theorem lookup_insertEntry (k : Text) (v : α) (entries : List (Text × α)) :
    (insertEntry k v entries).lookup k = some v := by
  induction entries with
  | nil => simp [insertEntry]
  | cons e rest ih =>
    by_cases hlt : k < e.1
    · simp [insertEntry, hlt]
    · by_cases hkey : k = e.1
      · simp [insertEntry, hkey]
      · have hne : (k == e.1) = false := by simpa using hkey
        rw [insertEntry, if_neg hlt, if_neg hkey, List.lookup_cons, hne]
        exact ih

/-- A later value for a key replaces an earlier one in a dictionary. -/
@[simp] theorem insert_insert (d : Dict α) (k : Text) (v w : α) :
    (d.insert k v).insert k w = d.insert k w :=
  eq_of_entries_eq (insertEntry_insertEntry k v w d.entries)

/-- The value that is inserted into a dictionary is found. -/
@[simp] theorem get?_insert (d : Dict α) (k : Text) (v : α) : (d.insert k v).get? k = some v :=
  lookup_insertEntry k v d.entries

/-- A key behind all others is not found. -/
theorem get?_eq_none_of_forall_lt {d : Dict α}
    (h : ∀ e ∈ d.entries, e.1 < k) : d.get? k = none := by
  unfold get?
  rw [List.lookup_eq_none_iff]
  intro e he
  simpa using ne_of_gt (h e he)

/-- A key behind all others is inserted at the end of a dictionary. -/
theorem entries_insert_of_forall_lt {d : Dict α}
    (h : ∀ e ∈ d.entries, e.1 < k) :
    (d.insert k v).entries = d.entries ++ [(k, v)] :=
  insertEntry_of_forall_lt h

/-- Insertions in ascending order behind all that is there append. -/
theorem entries_foldl_insert (d : Dict α) (more : List (Text × α))
    (h : Ascending (d.entries ++ more)) :
    (more.foldl (fun d e => d.insert e.1 e.2) d).entries = d.entries ++ more := by
  induction more generalizing d with
  | nil => simp
  | cons e rest ih =>
    have hlt : ∀ a ∈ d.entries, a.1 < e.1 := by
      intro a ha
      exact (List.pairwise_append.mp h).2.2 a ha e List.mem_cons_self
    have hinsert : (d.insert e.1 e.2).entries = d.entries ++ [e] :=
      entries_insert_of_forall_lt hlt
    have hassoc : (d.insert e.1 e.2).entries ++ rest = d.entries ++ e :: rest := by
      rw [hinsert, List.append_assoc]
      rfl
    rw [List.foldl_cons, ih (d.insert e.1 e.2) (by rw [hassoc]; exact h), hassoc]

/-- A dictionary is made from its entries. -/
theorem ofList_entries (d : Dict α) : ofList d.entries = d :=
  eq_of_entries_eq (entries_foldl_insert empty d.entries d.ascending)

/-! ## Look-ups -/

section Lookup

variable {d d' : Dict α} {key : Text}

/-- Under another key the same is found as before. -/
theorem lookup_insertEntry_of_ne (h : key ≠ k) (v : α) (entries : List (Text × α)) :
    (insertEntry k v entries).lookup key = entries.lookup key := by
  have hkey : (key == k) = false := by simpa using h
  induction entries with
  | nil => simp [insertEntry, List.lookup_cons, hkey]
  | cons e rest ih =>
    unfold insertEntry
    split
    · rw [List.lookup_cons, hkey]
    · split
      · next heq => rw [List.lookup_cons, List.lookup_cons, hkey, ← heq, hkey]
      · rw [List.lookup_cons, List.lookup_cons, ih]

/-- Under another key of a dictionary the same is found as before. -/
theorem get?_insert_of_ne (h : key ≠ k) (d : Dict α) (v : α) :
    (d.insert k v).get? key = d.get? key :=
  lookup_insertEntry_of_ne h v d.entries

/-- After an insertion the value is found under its key, and under all others what was there. -/
theorem get?_insert_eq_if (d : Dict α) (k : Text) (v : α) (key : Text) :
    (d.insert k v).get? key = if key = k then some v else d.get? key := by
  split
  · next h => rw [h, get?_insert]
  · next h => exact get?_insert_of_ne h d v

/-- No key comes twice. -/
theorem nodup_keys (d : Dict α) : (d.entries.map Prod.fst).Nodup := by
  rw [List.Nodup, List.pairwise_map]
  exact d.ascending.imp fun h => ne_of_lt h

/-- The entries are what is found. -/
theorem mem_entries_iff : (key, v) ∈ d.entries ↔ d.get? key = some v := by
  unfold get?
  rw [List.lookup_eq_some_iff]
  constructor
  · intro hmem
    obtain ⟨front, back, hsplit⟩ := List.append_of_mem hmem
    refine ⟨front, back, hsplit, ?_⟩
    intro e he
    have hnodup := d.nodup_keys
    rw [hsplit, List.map_append, List.nodup_append] at hnodup
    have hne := hnodup.2.2 e.1 (List.mem_map_of_mem he) key (by simp)
    simpa using hne.symm
  · rintro ⟨front, back, hsplit, -⟩
    rw [hsplit]
    simp

/-- Dictionaries that answer every look-up alike are equal. -/
theorem ext_get? (h : ∀ key, d.get? key = d'.get? key) : d = d' := by
  have hperm : d.entries.Perm d'.entries := by
    rw [List.perm_ext_iff_of_nodup (List.Nodup.of_map _ d.nodup_keys)
      (List.Nodup.of_map _ d'.nodup_keys)]
    rintro ⟨key, v⟩
    rw [mem_entries_iff, mem_entries_iff, h key]
  apply eq_of_entries_eq
  apply hperm.eq_of_pairwise _ d.ascending d'.ascending
  intro a b _ _ hab hba
  exact absurd hba (List.lt_asymm hab)

/-- After several insertions the last value of a key is found, or else what was there. -/
theorem get?_foldl_insert (entries : List (Text × α)) (d : Dict α) (key : Text) :
    (entries.foldl (fun d e => d.insert e.1 e.2) d).get? key =
      (entries.reverse.lookup key).or (d.get? key) := by
  induction entries generalizing d with
  | nil => rfl
  | cons e rest ih =>
    rw [List.foldl_cons, ih, get?_insert_eq_if, List.reverse_cons, List.lookup_append,
      Option.or_assoc, List.lookup_cons]
    by_cases hkey : key = e.1
    · simp [hkey]
    · have hne : (key == e.1) = false := by simpa using hkey
      rw [if_neg hkey, hne]
      rfl

/-- Of several entries with one key the last one counts. -/
theorem get?_ofList (entries : List (Text × α)) (key : Text) :
    (ofList entries).get? key = entries.reverse.lookup key := by
  unfold ofList
  rw [get?_foldl_insert]
  exact Option.or_none

end Lookup

/-! ## Entries -/

section Entries

variable {d : Dict α}

/-- A dictionary contains the keys of its entries. -/
theorem contains_eq_true_iff : d.contains k = true ↔ k ∈ d.entries.map Prod.fst := by
  unfold contains get?
  rw [List.lookup_isSome_iff, List.mem_map]
  constructor
  · rintro ⟨e, he, hkey⟩
    exact ⟨e, he, (beq_iff_eq.mp hkey).symm⟩
  · rintro ⟨e, he, rfl⟩
    exact ⟨e, he, beq_self_eq_true e.1⟩

/-- After an insertion a dictionary contains the key and those it contained. -/
theorem contains_insert {key : Text} :
    (d.insert k v).contains key = true ↔ key = k ∨ d.contains key = true := by
  unfold contains
  rw [get?_insert_eq_if]
  by_cases hkey : key = k
  · simp [hkey]
  · simp [hkey]

/-- A new key adds one entry, up to the order. -/
theorem perm_insertEntry (h : k ∉ entries.map Prod.fst) :
    (insertEntry k v entries).Perm ((k, v) :: entries) := by
  induction entries with
  | nil => exact List.Perm.refl _
  | cons e rest ih =>
    rw [List.map_cons, List.mem_cons, not_or] at h
    unfold insertEntry
    rw [if_neg h.1]
    split
    · exact List.Perm.refl _
    · exact ((ih h.2).cons e).trans (List.Perm.swap (k, v) e rest)

/-- A new key of a dictionary adds one entry, up to the order. -/
theorem perm_entries_insert (h : d.contains k = false) (v : α) :
    (d.insert k v).entries.Perm ((k, v) :: d.entries) := by
  apply perm_insertEntry
  rw [← contains_eq_true_iff, h]
  exact Bool.false_ne_true

/-- An insertion gives no entries but the new one and those that were there. -/
theorem subperm_insertEntry (k : Text) (v : α) (entries : List (Text × α)) :
    (insertEntry k v entries).Subperm ((k, v) :: entries) := by
  induction entries with
  | nil => exact List.Subperm.refl _
  | cons e rest ih =>
    unfold insertEntry
    split
    · exact List.Subperm.refl _
    · split
      · exact ((List.sublist_cons_self e rest).cons_cons (k, v)).subperm
      · exact ((List.subperm_cons e).mpr ih).trans (List.Perm.swap (k, v) e rest).subperm

/-- An insertion into a dictionary gives no entries but the new one and those that were there. -/
theorem subperm_entries_insert (d : Dict α) (k : Text) (v : α) :
    (d.insert k v).entries.Subperm ((k, v) :: d.entries) :=
  subperm_insertEntry k v d.entries

/-- A key that is there keeps its place. -/
theorem keys_insertEntry (hascending : Ascending entries) (h : k ∈ entries.map Prod.fst) :
    (insertEntry k v entries).map Prod.fst = entries.map Prod.fst := by
  induction entries with
  | nil => cases h
  | cons e rest ih =>
    obtain ⟨hhead, hrest⟩ := List.pairwise_cons.mp hascending
    unfold insertEntry
    by_cases hkey : k = e.1
    · simp [hkey]
    · have hmem : k ∈ rest.map Prod.fst := by
        rw [List.map_cons, List.mem_cons] at h
        exact h.resolve_left hkey
      obtain ⟨e', he', rfl⟩ := List.mem_map.mp hmem
      simp [List.lt_asymm (hhead e' he'), hkey, ih hrest hmem]

/-- A key that is there adds no entry. -/
theorem length_entries_insert (h : d.contains k = true) (v : α) :
    (d.insert k v).entries.length = d.entries.length := by
  have hkeys := keys_insertEntry (v := v) d.ascending (contains_eq_true_iff.mp h)
  have hlength := congrArg List.length hkeys
  rwa [List.length_map, List.length_map] at hlength

/-- Entries with different keys are all kept, up to the order. -/
theorem perm_entries_foldl_insert (more : List (Text × α))
    (h : ((d.entries ++ more).map Prod.fst).Nodup) :
    (more.foldl (fun d e => d.insert e.1 e.2) d).entries.Perm (d.entries ++ more) := by
  induction more generalizing d with
  | nil => simp
  | cons e rest ih =>
    have hnew : d.contains e.1 = false := by
      rw [← Bool.not_eq_true, contains_eq_true_iff]
      intro hmem
      rw [List.map_append, List.nodup_append] at h
      exact h.2.2 e.1 hmem e.1 (by simp) rfl
    have hinsert : ((d.insert e.1 e.2).entries ++ rest).Perm (d.entries ++ e :: rest) :=
      ((perm_entries_insert hnew e.2).append_right rest).trans List.perm_middle.symm
    exact (ih ((hinsert.map Prod.fst).nodup_iff.mpr h)).trans hinsert

/-- A dictionary made from entries with different keys has them all, up to the order. -/
theorem perm_entries_ofList (h : (entries.map Prod.fst).Nodup) :
    (ofList entries).entries.Perm entries :=
  perm_entries_foldl_insert entries h

end Entries

end Dict

end Concordance
