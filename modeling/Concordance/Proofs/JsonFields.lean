import Concordance.Proofs.ReplyForm

set_option autoImplicit false

/-!
# Reading objects by the names of their members

An object is written from entries, of which those without a value are left out. It is read by the
keys of the entries: a member that must be there is decoded, and one that may be missing stands for
nothing then. As long as the keys differ, each entry is read as it was, whatever the others are.
-/

namespace Concordance.JsonValue

open Reply

/-! ## Reading -/

variable {α : Type}

/-- Decodes the member of an object with a key, if there is one. There must not be two. -/
def optionalField? (key : Text) (decode : JsonValue → Option α) : JsonValue → Option (Option α)
  | .object list =>
    match list.filter fun m => m.1 = some key with
    | [] => some none
    | [m] => (decode m.2).map some
    | _ => none
  | _ => none

/-- Decodes the one member of an object with a key. -/
def field? (key : Text) (decode : JsonValue → Option α) (v : JsonValue) : Option α :=
  (v.optionalField? key decode).join

/-- A natural number. -/
def nat? : JsonValue → Option Nat
  | .number n =>
    if n.negative || !n.fraction.isEmpty || n.exponent.isSome then none
    else some (Numeral.natOfDigits n.whole)
  | _ => none

/-- One of the given things by its name. -/
def named? (all : List α) (name : α → Text) (v : JsonValue) : Option α :=
  (text? v).bind fun t => all.find? fun a => name a = t

/-! ## Members that are there, or not -/

/-- The members that are written for entries: those that have a value. -/
def present (entries : List (Text × Option JsonValue)) : List (Text × JsonValue) :=
  entries.flatMap fun e => optional e.1 e.2

/-- A value is the object of some entries with different keys, without those that have no value. -/
structure States (v : JsonValue) (entries : List (Text × Option JsonValue)) : Prop where
  distinct : (entries.map Prod.fst).Nodup
  value : v = record (present entries)

section States

variable {key : Text} {decode : JsonValue → Option α} {encode : α → JsonValue}
  {v w : JsonValue} {entries : List (Text × Option JsonValue)}

/-- An optional member is kept just for its own key. -/
theorem filter_optional (key other : Text) (value : Option JsonValue) :
    ((optional other value).filter fun m => m.1 = key) =
      if other = key then optional other value else [] := by
  cases value with
  | none => simp [JsonValue.optional]
  | some v => by_cases h : other = key <;> simp [JsonValue.optional, h]

/-- A key that no entry has is not present. -/
theorem filter_present_eq_nil (h : key ∉ entries.map Prod.fst) :
    ((present entries).filter fun m => m.1 = key) = [] := by
  rw [List.filter_eq_nil_iff]
  intro m hm
  obtain ⟨e, he, hm⟩ := List.mem_flatMap.mp hm
  obtain ⟨u, -, rfl⟩ := Option.map_eq_some_iff.mp (Option.mem_toList.mp hm)
  have hne : e.1 ≠ key := fun hkey => h (hkey ▸ List.mem_map_of_mem he)
  simpa using hne

/-- Different keys do not get in each other's way. -/
theorem filter_present (hdistinct : (entries.map Prod.fst).Nodup) {value : Option JsonValue}
    (hmem : (key, value) ∈ entries) :
    ((present entries).filter fun m => m.1 = key) = optional key value := by
  induction entries with
  | nil => cases hmem
  | cons e entries ih =>
    obtain ⟨other, first⟩ := e
    rw [List.map_cons, List.nodup_cons] at hdistinct
    have hsplit : present ((other, first) :: entries) =
        optional other first ++ present entries := List.flatMap_cons
    rw [hsplit, List.filter_append, filter_optional]
    rcases List.mem_cons.mp hmem with hhead | hmem
    · obtain ⟨rfl, rfl⟩ := Prod.mk.inj hhead
      rw [if_pos rfl, filter_present_eq_nil hdistinct.1, List.append_nil]
    · have hkey : key ∈ entries.map Prod.fst := List.mem_map.mpr ⟨_, hmem, rfl⟩
      have hne : other ≠ key := fun hsame => hdistinct.1 (hsame ▸ hkey)
      rw [if_neg hne, List.nil_append, ih hdistinct.2 hmem]

/-- An object that states entries has just one member for the key of each entry that has a value. -/
theorem States.filter (h : States v entries) {value : Option JsonValue}
    (hmem : (key, value) ∈ entries) :
    ∃ list, v = .object list ∧ (list.filter fun m => m.1 = some key) =
      (value.map fun w => (some key, w)).toList := by
  refine ⟨_, h.value, ?_⟩
  have hkeys : (fun m : JsonString × JsonValue => decide (m.1 = some key)) ∘
      (fun m : Text × JsonValue => (some m.1, m.2)) = fun m => decide (m.1 = key) := by
    funext m
    simp
  rw [List.filter_map, hkeys, filter_present h.distinct hmem]
  cases value with
  | none => rfl
  | some w => rfl

/-- An entry is read as it was, whether it has a value or not. -/
theorem States.optionalField? (h : States v entries) {value : Option α}
    (hmem : (key, value.map encode) ∈ entries) (hdecode : ∀ a, decode (encode a) = some a) :
    v.optionalField? key decode = some value := by
  obtain ⟨list, rfl, hlist⟩ := h.filter hmem
  rw [JsonValue.optionalField?, hlist]
  cases value with
  | none => rfl
  | some a => simp [hdecode]

/-- What an entry states can be read back by its key. -/
theorem States.field? (h : States v entries) {a : α} (hmem : (key, some w) ∈ entries)
    (hdecode : decode w = some a) : v.field? key decode = some a := by
  obtain ⟨list, rfl, hlist⟩ := h.filter hmem
  rw [JsonValue.field?, JsonValue.optionalField?, hlist]
  simp [hdecode]

/-- An object whose entries can be written can be written. -/
theorem States.isWritable (h : States v entries)
    (hall : ∀ e ∈ entries, ∀ w ∈ e.2, IsWritable w) : IsWritable v := by
  rw [h.value]
  apply isWritable_record
  intro m hm
  obtain ⟨e, he, hm⟩ := List.mem_flatMap.mp hm
  obtain ⟨w, hw, rfl⟩ := Option.map_eq_some_iff.mp (Option.mem_toList.mp hm)
  exact hall e he w hw

end States

/-- Numbers can be written. -/
theorem isWritable_nat (n : Nat) : IsWritable (.nat n) := .number (isNumeral_ofNat n)

/-- A value that is there can be written if it can. -/
theorem isWritable_some {v : JsonValue} (h : IsWritable v) : ∀ w ∈ some v, IsWritable w := by
  rintro w ⟨⟩
  exact h

/-- An optional value can be written if every value of its kind can. -/
theorem isWritable_map {α : Type} {encode : α → JsonValue} (h : ∀ a, IsWritable (encode a))
    (value : Option α) : ∀ w ∈ value.map encode, IsWritable w := by
  intro w hw
  obtain ⟨a, -, rfl⟩ := Option.map_eq_some_iff.mp hw
  exact h a

/-- A list can be written if every member of its kind can. -/
theorem isWritable_array {α : Type} {encode : α → JsonValue} (h : ∀ a, IsWritable (encode a))
    (l : List α) : IsWritable (.array (l.map encode)) :=
  .array (List.forall_mem_map.mpr fun a _ => h a)

/-- A text is read back as it is. -/
theorem text?_text (t : Text) : text? (.text t) = some t := rfl

/-- A number is read back as it is. -/
theorem nat?_nat (n : Nat) : JsonValue.nat? (.nat n) = some n := by
  simp [JsonValue.nat?, JsonValue.nat, Numeral.ofNat, natOfDigits_ofNat]

/-- A thing is found by its name among things with names of their own. -/
theorem named?_name {α : Type} {all : List α} {name : α → Text} (hnames : (all.map name).Nodup)
    {a : α} (ha : a ∈ all) : named? all name (.text (name a)) = some a := by
  change all.find? (fun b => name b = name a) = some a
  obtain ⟨b, hb⟩ : ∃ b, all.find? (fun b => name b = name a) = some b := by
    rw [← Option.isSome_iff_exists, List.find?_isSome]
    exact ⟨a, ha, by simp⟩
  have hname : name b = name a := by simpa using List.find?_some hb
  rw [hb, List.inj_on_of_nodup_map hnames (List.mem_of_find?_eq_some hb) ha hname]

/-- A list is read back if every member of its kind is. -/
theorem list?_map {α : Type} {decode : JsonValue → Option α} {encode : α → JsonValue}
    (hdecode : ∀ a, decode (encode a) = some a) (l : List α) :
    list? decode (.array (l.map encode)) = some l := by
  apply mapM_of_forall₂
  rw [List.forall₂_map_right_iff, List.forall₂_same]
  exact fun a _ => hdecode a

end Concordance.JsonValue
