import Mathlib.Data.List.Forall2
import Mathlib.Data.List.Nodup
import Mathlib.Data.List.Perm.Basic

set_option autoImplicit false

/-!
# Lists and results

Facts about lists, and about results that may be errors, that the libraries do not have in the form
in which the proofs about reading, pairing and reporting use them.
-/

namespace Concordance

variable {α β γ κ σ : Type}

/-! ## Results -/

/-- What comes out whole after a change of wording was there whole before. -/
theorem ok_of_mapError {ε ε' : Type} {f : ε → ε'} {x : Except ε α} {a : α}
    (h : x.mapError f = .ok a) : x = .ok a := by
  cases x with
  | error e => cases h
  | ok b => rw [← Except.ok.inj h]

/-- A result with a value is that value. -/
theorem ok_of_toOption {ε : Type} {x : Except ε α} {v : α} (h : x.toOption = some v) :
    x = .ok v := by
  cases x with
  | error e => cases h
  | ok w => exact congrArg Except.ok (Option.some.inj h)

/-! ## Filters -/

/-- Without the mark for absent values, the present ones remain. -/
theorem filter_map_getD [DecidableEq γ] {f : α → Option β} {g : β → γ} {absent : γ} {l : List α}
    (hpresent : ∀ b ∈ l.filterMap f, g b ≠ absent) :
    (l.map fun a => ((f a).map g).getD absent).filter (fun c => c ≠ absent) =
      (l.filterMap f).map g := by
  induction l with
  | nil => rfl
  | cons a rest ih =>
    rw [List.map_cons]
    cases hfa : f a with
    | none =>
      rw [List.filterMap_cons_none hfa] at hpresent ⊢
      rw [List.filter_cons_of_neg (by simp), ih hpresent]
    | some b =>
      rw [List.filterMap_cons_some hfa] at hpresent ⊢
      have hb : g b ≠ absent := hpresent b List.mem_cons_self
      rw [List.filter_cons_of_pos (by simpa using hb), List.map_cons,
        ih fun c hc => hpresent c (List.mem_cons_of_mem _ hc)]
      rfl

/-- What is made of the members that are kept stands beside them in what is made of all. -/
theorem map_filter_eq_zip (f : α → β) (p : α → Bool) (l : List α) :
    (l.filter p).map f = ((l.zip (l.map f)).filter fun q => p q.1).map Prod.snd := by
  induction l with
  | nil => rfl
  | cons a rest ih =>
    rw [List.map_cons, List.zip_cons_cons, List.filter_cons, List.filter_cons]
    cases p a with
    | true => simpa using ih
    | false => simpa using ih

/-- A filter loses nothing of what members give just if all that give something are kept. -/
theorem filterMap_filter_eq_iff {f : α → Option β} {p : α → Bool} {l : List α} :
    (l.filter p).filterMap f = l.filterMap f ↔ ∀ a ∈ l, (f a).isSome = true → p a = true := by
  induction l with
  | nil => simp
  | cons a rest ih =>
    rw [List.forall_mem_cons, ← ih]
    cases hp : p a with
    | true => cases hf : f a <;> simp [hp, hf]
    | false =>
      cases hf : f a with
      | none => simp [hp, hf]
      | some b =>
        -- What is left of the rest is too short to make up for the member that is lost.
        have hle : ((rest.filter p).filterMap f).length ≤ (rest.filterMap f).length :=
          (List.filter_sublist.filterMap f).length_le
        refine iff_of_false (fun heq => ?_) (by simp)
        rw [List.filter_cons_of_neg (by simp [hp]), List.filterMap_cons_some hf] at heq
        rw [heq, List.length_cons] at hle
        omega

/-- Where a member says of all that it gives whether it is kept, members are kept or left out. -/
theorem filter_flatMap_of_forall {l : List α} {f : α → List β} {p : β → Bool} {keep : α → Bool}
    (h : ∀ a ∈ l, ∀ x ∈ f a, p x = keep a) :
    (l.flatMap f).filter p = (l.filter keep).flatMap f := by
  induction l with
  | nil => rfl
  | cons a l ih =>
    have hrest := ih fun b hb => h b (List.mem_cons_of_mem a hb)
    have hhere := h a List.mem_cons_self
    rw [List.flatMap_cons, List.filter_append, hrest]
    cases hkeep : keep a with
    | true =>
      have hall : (f a).filter p = f a := by
        rw [List.filter_eq_self]
        intro x hx
        rw [hhere x hx, hkeep]
      rw [hall, List.filter_cons_of_pos hkeep, List.flatMap_cons]
    | false =>
      have hnone : (f a).filter p = [] := by
        rw [List.filter_eq_nil_iff]
        intro x hx
        rw [hhere x hx, hkeep]
        exact Bool.false_ne_true
      rw [hnone, List.filter_cons_of_neg (by rw [hkeep]; exact Bool.false_ne_true), List.nil_append]

/-- At most one member has a key. -/
theorem filter_eq_nil_or_singleton {l : List α} {key : α → κ} {keep : α → Bool} {k : κ}
    (hdistinct : (l.map key).Nodup) (hkey : ∀ a ∈ l, keep a = true → key a = k) :
    l.filter keep = [] ∨ ∃ a ∈ l, keep a = true ∧ l.filter keep = [a] := by
  cases hkept : l.filter keep with
  | nil => exact Or.inl rfl
  | cons a rest =>
    have hmem : ∀ b ∈ a :: rest, b ∈ l ∧ keep b = true := by
      intro b hb
      rw [← hkept] at hb
      exact List.mem_filter.mp hb
    obtain ⟨ha, hkeep⟩ := hmem a List.mem_cons_self
    refine Or.inr ⟨a, ha, hkeep, ?_⟩
    have hnodup : ((a :: rest).map key).Nodup := by
      rw [← hkept]
      exact (List.filter_sublist.map key).nodup hdistinct
    cases rest with
    | nil => rfl
    | cons b rest =>
      obtain ⟨hb, hkeep'⟩ := hmem b (by simp)
      rw [List.map_cons, List.map_cons, hkey a ha hkeep, hkey b hb hkeep'] at hnodup
      simp at hnodup

/-- Where the members of other keys give nothing, a list gives what its one member does. -/
theorem flatMap_eq_of_forall_ne {key : α → κ} {f : α → List β} {l : List α} {a : α}
    (hdistinct : (l.map key).Nodup) (ha : a ∈ l) (hother : ∀ b ∈ l, key b ≠ key a → f b = []) :
    l.flatMap f = f a := by
  induction l with
  | nil => cases ha
  | cons c l ih =>
    rw [List.map_cons, List.nodup_cons] at hdistinct
    obtain ⟨hnew, hrest⟩ := hdistinct
    rw [List.flatMap_cons]
    rcases List.mem_cons.mp ha with rfl | ha
    · have hnil : l.flatMap f = [] := by
        rw [List.flatMap_eq_nil_iff]
        intro b hb
        refine hother b (List.mem_cons_of_mem a hb) ?_
        intro hkey
        exact hnew (hkey ▸ List.mem_map_of_mem hb)
      rw [hnil, List.append_nil]
    · have hne : key c ≠ key a := by
        intro hkey
        exact hnew (hkey ▸ List.mem_map_of_mem ha)
      rw [hother c List.mem_cons_self hne, List.nil_append]
      exact ih hrest ha fun b hb => hother b (List.mem_cons_of_mem c hb)

/-! ## Erasure -/

/-- Of numbered members, dropping the number of the first with a property drops that one. -/
theorem filter_fst_ne_eq_eraseP {p : Nat × α → Bool} {l : List (Nat × α)} {m : Nat × α}
    (hnodup : (l.map Prod.fst).Nodup) (hfind : l.find? p = some m) :
    (l.filter fun n => decide (n.1 ≠ m.1)) = l.eraseP p := by
  induction l with
  | nil => simp at hfind
  | cons n rest ih =>
    rw [List.map_cons, List.nodup_cons] at hnodup
    cases hn : p n with
    | true =>
      rw [List.find?_cons_of_pos hn, Option.some.injEq] at hfind
      subst hfind
      rw [List.eraseP_cons_of_pos hn, List.filter_cons_of_neg (by simp), List.filter_eq_self]
      intro k hk
      have hne : k.1 ≠ n.1 := fun h => hnodup.1 (h ▸ List.mem_map_of_mem hk)
      simpa using hne
    | false =>
      rw [List.find?_cons_of_neg (by simp [hn])] at hfind
      have hne : n.1 ≠ m.1 := fun h =>
        hnodup.1 (h ▸ List.mem_map_of_mem (List.mem_of_find?_eq_some hfind))
      rw [List.eraseP_cons_of_neg (by simp [hn]), List.filter_cons_of_pos (by simpa using hne),
        ih hnodup.2 hfind]

/-- The first member with a property is also the first one of those with it. -/
theorem eraseP_filter_self (p : α → Bool) (l : List α) :
    (l.filter p).eraseP p = (l.eraseP p).filter p := by
  rw [List.eraseP_filter]
  simp

/-- Taking away what was not kept anyway makes no difference. -/
theorem filter_eraseP_of_disjoint {p q : α → Bool} {l : List α}
    (h : ∀ a ∈ l, p a = true → q a = false) : (l.eraseP q).filter p = l.filter p := by
  rcases List.exists_or_eq_self_of_eraseP q l with heq | ⟨a, front, back, -, ha, rfl, heq⟩
  · rw [heq]
  · have hp : ¬ p a = true := by
      intro hp
      have hq := h a (by simp) hp
      rw [ha] at hq
      cases hq
    rw [heq, List.filter_append, List.filter_append, List.filter_cons_of_neg hp]

/-! ## Searches and ranges -/

/-- A search that at most one member answers finds it in any order. -/
theorem find?_eq_of_perm {p : α → Bool} {l l' : List α} (h : l.Perm l')
    (hone : ∀ a ∈ l, ∀ b ∈ l, p a = true → p b = true → a = b) : l.find? p = l'.find? p := by
  induction h with
  | nil => rfl
  | cons x _ ih =>
    rw [List.find?_cons, List.find?_cons,
      ih fun a ha b hb => hone a (List.mem_cons_of_mem x ha) b (List.mem_cons_of_mem x hb)]
  | swap x y l =>
    cases hx : p x <;> cases hy : p y <;> simp only [List.find?_cons, hx, hy]
    rw [hone y List.mem_cons_self x (List.mem_cons_of_mem y List.mem_cons_self) hy hx]
  | trans h _ ih ih' =>
    exact (ih hone).trans
      (ih' fun a ha b hb => hone a (h.mem_iff.mpr ha) b (h.mem_iff.mpr hb))

/-- A range that is not empty begins with its first number. -/
theorem range'_of_lt {i e : Nat} (hi : i < e) :
    List.range' i (e - i) = i :: List.range' (i + 1) (e - (i + 1)) := by
  have hlength : e - i = e - (i + 1) + 1 := by omega
  rw [hlength, List.range'_succ]

/-! ## Two pieces, each under a condition -/

/-- Of two conditional members there is no other. -/
theorem eq_or_eq_of_mem_pair {x y z : β} {b c : Bool}
    (h : z ∈ (if b then [] else [x]) ++ (if c then [y] else [])) : z = x ∨ z = y := by
  cases b <;> cases c <;> simp at h <;> simp [h]

/-- If one of two conditional members does not count, at most one is counted. -/
theorem countP_pair_le {p : β → Bool} {x y : β} (h : p x = false ∨ p y = false) (b c : Bool) :
    ((if b then [] else [x]) ++ (if c then [y] else [])).countP p ≤ 1 := by
  rcases h with h | h <;> cases b <;> cases c <;> simp [h, List.countP_cons] <;> split <;> omega

/-- If neither of two conditional members counts, none is counted. -/
theorem countP_pair_eq_zero {p : β → Bool} {x y : β} (hx : p x = false) (hy : p y = false)
    (b c : Bool) : ((if b then [] else [x]) ++ (if c then [y] else [])).countP p = 0 := by
  cases b <;> cases c <;> simp [hx, hy]

/-! ## Lists side by side -/

section Pairs

variable {R : α → β → Prop} {l : List α} {l' : List β}

/-- What related members have in common, the lists have in common. -/
theorem map_eq_of_forall₂ {f : α → γ} {g : β → γ} (hR : ∀ a b, R a b → g b = f a)
    (h : List.Forall₂ R l l') : l'.map g = l.map f := by
  induction h with
  | nil => rfl
  | cons hhead _ ih => rw [List.map_cons, List.map_cons, hR _ _ hhead, ih]

/-- Related lists are both empty or both not. -/
theorem isEmpty_eq_of_forall₂ (h : List.Forall₂ R l l') : l.isEmpty = l'.isEmpty := by
  cases h with
  | nil => rfl
  | cons _ _ => rfl

/-- A property that passes to related members and is met on one side is met on the other. -/
theorem any_of_forall₂ {p : α → Bool} {q : β → Bool} (hR : ∀ a b, R a b → p a = true → q b = true)
    (h : List.Forall₂ R l l') (hany : l.any p = true) : l'.any q = true := by
  induction h with
  | nil => exact hany
  | cons hab _ ih =>
    simp only [List.any_cons, Bool.or_eq_true] at hany ⊢
    rcases hany with ha | hrest
    · exact Or.inl (hR _ _ hab ha)
    · exact Or.inr (ih hrest)

/-- What being related says of the one side holds of all members there. -/
theorem forall_mem_of_forall₂ {P : β → Prop} (hR : ∀ a b, R a b → P b)
    (h : List.Forall₂ R l l') : ∀ b ∈ l', P b := by
  induction h with
  | nil => simp
  | cons hab _ ih =>
    intro b hb
    rcases List.mem_cons.mp hb with rfl | hb
    · exact hR _ _ hab
    · exact ih b hb

/-- Members that are read back one by one are read back as a list. -/
theorem mapM_of_forall₂ {f : β → Option α} (h : List.Forall₂ (fun a b => f b = some a) l l') :
    l'.mapM f = some l := by
  induction h with
  | nil => rfl
  | cons hb _ ih => simp [List.mapM_cons, hb, ih]

/-- A loop with a memory gives for each member what its body can give for it. -/
theorem forall₂_mapM_run {body : α → StateM σ β} (hbody : ∀ a memory, R a ((body a).run memory).1)
    (l : List α) (memory : σ) : List.Forall₂ R l ((l.mapM body).run memory).1 := by
  induction l generalizing memory with
  | nil => exact .nil
  | cons a rest ih =>
    rw [List.mapM_cons]
    exact .cons (hbody a memory) (ih ((body a).run memory).2)

end Pairs

/-! ## Splits and beginnings -/

section Splits

variable [BEq α] [LawfulBEq α] {a : α} {l : List α}

/-- A piece without the separator is split off. -/
theorem splitOn_append_cons (h : a ∉ l) (m : List α) :
    (l ++ a :: m).splitOn a = l :: m.splitOn a := by
  have hother : ∀ b ∈ l, (b == a) = false := by
    intro b hb
    have hne : b ≠ a := fun hba => h (hba ▸ hb)
    simpa using hne
  exact List.splitOnP_append_cons_of_forall_mem hother a (by simp) m

/-- A list without the separator is its own only piece. -/
theorem splitOn_eq_singleton (h : a ∉ l) : l.splitOn a = [l] := by
  have hpieces : ∀ piece ∈ [l], a ∉ piece := by simpa using h
  have hsplit := List.splitOn_intercalate a hpieces (by simp)
  rwa [List.intercalate_singleton] at hsplit

/-- No piece holds the separator. -/
theorem not_mem_of_mem_splitOn {piece : List α} (h : piece ∈ l.splitOn a) : a ∉ piece := by
  induction l generalizing piece with
  | nil =>
    obtain rfl : piece = [] := List.mem_singleton.mp h
    exact List.not_mem_nil
  | cons b l ih =>
    rw [List.splitOn_cons_eq_if_modifyHead] at h
    split at h
    · rcases List.mem_cons.mp h with rfl | h
      · exact List.not_mem_nil
      · exact ih h
    · next hb =>
      have hne : b ≠ a := by simpa using hb
      cases hpieces : l.splitOn a with
      | nil => exact absurd hpieces (List.splitOn_ne_nil a l)
      | cons first rest =>
        rw [hpieces] at h ih
        rcases List.mem_cons.mp h with rfl | h
        · have hfirst := ih List.mem_cons_self
          simp [hfirst, Ne.symm hne]
        · exact ih (List.mem_cons_of_mem first h)

end Splits

/-- A beginning ends before a member that it does not have. -/
theorem prefix_of_prefix_append_cons {a : α} {l m n : List α} (ha : a ∉ l)
    (h : l <+: m ++ a :: n) : l <+: m := by
  rcases List.prefix_or_prefix_of_prefix h (List.prefix_append m (a :: n)) with hm | ⟨more, rfl⟩
  · exact hm
  · have hmore : more <+: a :: n := (List.prefix_append_right_inj m).mp h
    cases more with
    | nil => simp
    | cons b more =>
      obtain rfl := (List.cons_prefix_cons.mp hmore).1
      simp at ha

/-- The last member of a list is its first one if there is no other. -/
theorem getLast?_cons_or (a : α) (l : List α) (last : Option α) :
    (a :: l).getLast?.or last = l.getLast?.or (some a) := by
  rw [List.getLast?_cons]
  cases l.getLast? <;> rfl

end Concordance
