import Concordance.Alignment.Battery
import Mathlib.Data.List.DropRight

set_option autoImplicit false

/-!
# Which method is looked up

The battery looks methods up by name, and of several that fit it takes the first. An action is the
first method without a mark of its name. A query is the first marked method of its name; only if
there is none, it is the first method whose name agrees with it but for leading marks. `IsFirst` and
`Implements` say this without a search.
-/

namespace Concordance

/-! ## Names -/

/-- The mark is taken off once. -/
@[simp] theorem unmarked_unmarked (name : Text) : unmarked (unmarked name) = unmarked name :=
  List.dropWhile_idempotent _ _

namespace Battery

/-- Every method is taken for a query just if its name carries the mark. -/
def MarkedByName (m : SourceModule) : Prop :=
  ∀ d ∈ m.methods, d.isQuery = isQueryName d.name

instance (m : SourceModule) : Decidable (MarkedByName m) :=
  inferInstanceAs (Decidable (∀ d ∈ m.methods, d.isQuery = isQueryName d.name))

/-- A member of a list is the first one with a property. -/
def IsFirst {α : Type} (P : α → Prop) (l : List α) (a : α) : Prop :=
  ∃ front back, l = front ++ a :: back ∧ P a ∧ ∀ b ∈ front, ¬ P b

/-- A search finds the first member that passes the test. -/
theorem find?_eq_some_iff_isFirst {α : Type} {p : α → Bool} {l : List α} {a : α} :
    l.find? p = some a ↔ IsFirst (fun b => p b = true) l a := by
  rw [List.find?_eq_some_iff_append]
  unfold IsFirst
  constructor
  · rintro ⟨ha, front, back, hl, hfront⟩
    exact ⟨front, back, hl, ha, fun b hb => by simpa using hfront b hb⟩
  · rintro ⟨front, back, hl, ha, hfront⟩
    exact ⟨ha, front, back, hl, fun b hb => by simpa using hfront b hb⟩

/-- The first member with a property is a member. -/
theorem IsFirst.mem {α : Type} {P : α → Prop} {l : List α} {a : α} (h : IsFirst P l a) : a ∈ l := by
  obtain ⟨front, back, rfl, -, -⟩ := h
  simp

/-- The first member with a property has it. -/
theorem IsFirst.holds {α : Type} {P : α → Prop} {l : List α} {a : α} (h : IsFirst P l a) : P a := by
  obtain ⟨front, back, -, ha, -⟩ := h
  exact ha

/-- Equivalent properties have the same first member. -/
theorem isFirst_congr {α : Type} {P Q : α → Prop} (hPQ : ∀ a, P a ↔ Q a) {l : List α} {a : α} :
    IsFirst P l a ↔ IsFirst Q l a := by
  have : P = Q := funext fun a => propext (hPQ a)
  rw [this]

/-- The action of a name: the first method without a mark that has it. -/
def ImplementsAction (m : SourceModule) (name : Text) (d : Method) : Prop :=
  IsFirst (fun d => d.isQuery = false ∧ d.name = name) m.methods d

/-- The method of a query: the first marked one of its name or else, if there is none, the first
whose name agrees but for leading marks. -/
def Implements (m : SourceModule) (q : Operation) (d : Method) : Prop :=
  IsFirst (fun d => d.isQuery = true ∧ d.name = q.name) m.methods d ∨
    (∀ d ∈ m.methods, ¬ (d.isQuery = true ∧ d.name = q.name)) ∧
      IsFirst (fun d => unmarked d.name = unmarked q.name) m.methods d

variable {m : SourceModule}

/-- The action found by a name is the first one that has it. -/
theorem find?_actions_eq_some_iff {name : Text} {d : Method} :
    m.actions.find? (fun d => d.name = name) = some d ↔ ImplementsAction m name d := by
  unfold SourceModule.actions ImplementsAction
  rw [List.find?_filter, find?_eq_some_iff_isFirst]
  apply isFirst_congr
  intro e
  simp

/-- The method found for a query is the one that implements it. -/
theorem implementing?_eq_some_iff {q : Operation} {d : Method} :
    implementing? m q = some d ↔ Implements m q d := by
  have hmarked : ∀ e, m.queries.find? (fun d => d.name = q.name) = some e ↔
      IsFirst (fun d => d.isQuery = true ∧ d.name = q.name) m.methods e := by
    intro e
    unfold SourceModule.queries
    rw [List.find?_filter, find?_eq_some_iff_isFirst]
    apply isFirst_congr
    intro e
    simp
  have hnone : m.queries.find? (fun d => d.name = q.name) = none ↔
      ∀ d ∈ m.methods, ¬ (d.isQuery = true ∧ d.name = q.name) := by
    rw [List.find?_eq_none]
    unfold SourceModule.queries
    simp
  have hplain : m.methods.find? (fun d => unmarked d.name = unmarked q.name) = some d ↔
      IsFirst (fun d => unmarked d.name = unmarked q.name) m.methods d := by
    rw [find?_eq_some_iff_isFirst]
    apply isFirst_congr
    intro e
    simp
  unfold implementing? Implements
  rw [Option.or_eq_some_iff, hmarked, hnone, hplain]

/-- A method that implements a query is one of the module. -/
theorem Implements.mem {q : Operation} {d : Method} (h : Implements m q d) : d ∈ m.methods := by
  rcases h with h | ⟨-, h⟩
  · exact h.mem
  · exact h.mem

end Battery

end Concordance
