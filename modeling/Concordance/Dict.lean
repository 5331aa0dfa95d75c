import Concordance.Text.Basic

set_option autoImplicit false

/-!
# Dictionaries

A dictionary holds at most one value for a text and lists its entries in the order of their keys.
That order is part of the type, so two dictionaries that answer every look-up alike are equal.
-/

namespace Concordance

/-- The entries of a dictionary have strictly ascending keys. -/
def Ascending {α : Type} (entries : List (Text × α)) : Prop :=
  entries.Pairwise fun a b => a.1 < b.1

/-- A finite map from texts, listed in ascending order of its keys. -/
structure Dict (α : Type) where
  entries : List (Text × α)
  ascending : Ascending entries

namespace Dict

variable {α : Type}

instance [DecidableEq α] : DecidableEq (Dict α) := fun a b =>
  if h : a.entries = b.entries then
    isTrue (by cases a; cases b; cases h; rfl)
  else
    isFalse fun e => h (by rw [e])

/-- The dictionary without entries. -/
def empty : Dict α := ⟨[], List.Pairwise.nil⟩

instance : Inhabited (Dict α) := ⟨empty⟩

/-- Whether a dictionary has no entry. -/
def isEmpty (d : Dict α) : Bool := d.entries.isEmpty

/-- Puts an entry in its place among ascending entries and drops the one of the same key. -/
def insertEntry (k : Text) (v : α) : List (Text × α) → List (Text × α)
  | [] => [(k, v)]
  | e :: rest =>
    if k < e.1 then (k, v) :: e :: rest
    else if k = e.1 then (k, v) :: rest
    else e :: insertEntry k v rest

/-- An entry after an insertion is the new one or was there before. -/
theorem mem_insertEntry {k : Text} {v : α} {entries : List (Text × α)} {e : Text × α}
    (h : e ∈ insertEntry k v entries) : e = (k, v) ∨ e ∈ entries := by
  induction entries with
  | nil => simpa [insertEntry] using h
  | cons a rest ih =>
    simp only [insertEntry] at h
    split at h
    · simpa using h
    · split at h
      · rcases List.mem_cons.mp h with h | h
        · exact Or.inl h
        · exact Or.inr (List.mem_cons_of_mem _ h)
      · rcases List.mem_cons.mp h with h | h
        · exact Or.inr (h ▸ List.mem_cons_self)
        · exact (ih h).imp_right (List.mem_cons_of_mem _)

/-- An insertion keeps the keys ascending. -/
theorem ascending_insertEntry {k : Text} {v : α} {entries : List (Text × α)}
    (h : Ascending entries) : Ascending (insertEntry k v entries) := by
  induction entries with
  | nil => exact List.pairwise_singleton _ _
  | cons a rest ih =>
    obtain ⟨hhead, htail⟩ := List.pairwise_cons.mp h
    simp only [insertEntry]
    split
    · next hk =>
      refine List.pairwise_cons.mpr ⟨fun b hb => ?_, h⟩
      rcases List.mem_cons.mp hb with rfl | hb
      · exact hk
      · exact List.lt_trans hk (hhead b hb)
    · next hk =>
      split
      · next heq =>
        refine List.pairwise_cons.mpr ⟨fun b hb => ?_, htail⟩
        have := hhead b hb
        rw [← heq] at this
        exact this
      · next hne =>
        refine List.pairwise_cons.mpr ⟨fun b hb => ?_, ih htail⟩
        rcases mem_insertEntry hb with rfl | hb
        · exact Decidable.byContradiction fun hle => hne (List.le_antisymm hle hk)
        · exact hhead b hb

/-- The dictionary with `v` for `k`, whatever it held for `k` before. -/
def insert (d : Dict α) (k : Text) (v : α) : Dict α :=
  ⟨insertEntry k v d.entries, ascending_insertEntry d.ascending⟩

/-- The value a dictionary holds for a key. -/
def get? (d : Dict α) (k : Text) : Option α := d.entries.lookup k

/-- Whether a dictionary holds a value for a key. -/
def contains (d : Dict α) (k : Text) : Bool := (d.get? k).isSome

/-- The dictionary of a list of entries; of several with one key the last one counts. -/
def ofList (entries : List (Text × α)) : Dict α :=
  entries.foldl (fun d e => d.insert e.1 e.2) empty

end Dict

end Concordance
