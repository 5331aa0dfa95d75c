import Concordance.Proofs.Handover
import Concordance.Proofs.Lists

set_option autoImplicit false

/-!
# What is reported at the line of a method

Five loops of the battery place issues at methods: over the defects of the module, over the declared
actions and the methods that are none of them, and over the declared queries and the readers without
a mark. If methods differ in their names and lines, then an issue stands at the line of a method
just if the loop is at that method or at an operation that it is looked up for. So the battery
restricted to one line is put together from what each loop says there (`filter_compare`), and two
loops that could say the same thing are never both at the method: one of them asks for a method that
is declared, or shaped like a query, and the other one for a method that is not.
-/

namespace Concordance.Battery

open Text

/-! ## Issues at a line -/

/-- An issue stands at the line of a method. -/
def onLineOf (m : SourceModule) (d : Method) (i : Issue) : Bool :=
  decide (i.location.file = m.path ∧ i.location.line = some d.line)

/-- An issue says that failure or an error outcome is not provided for. -/
def saysUnhandled (i : Issue) : Bool := i.category = .missingErrorHandling

/-- An issue is an error that a name has the wrong form. -/
def isMisnaming (i : Issue) : Bool := i.category = .namingConvention && i.severity = .error

/-- What the loops of the battery say when they are at a method. -/
def lineReports (s : Specification) (m : SourceModule) (d : Method) : List Issue :=
  (m.methodDefects d).filterMap (moduleIssue? s m) ++
    ((s.actions.filter fun a => !d.isQuery && a.name = d.name).flatMap (actionIssues s m) ++
      if !isSpecified s d && !d.isQuery then [unspecifiedAction m d] else []) ++
    ((s.queries.filter fun q => implementing? m q = some d).flatMap (queryIssues s m) ++
      if isQueryShaped d.name && !d.isQuery then [namingError m d] else [])

/-! ## The loops at one line -/

variable {s : Specification} {m : SourceModule} {d : Method} {i : Issue}

/-- An issue without a line is not on the line of a method. -/
theorem onLineOf_of_line_eq_none (h : i.location.line = none) : onLineOf m d i = false := by
  simp [onLineOf, h]

/-- Issues without a line are not on the line of a method. -/
theorem filter_onLineOf_of_forall {issues : List Issue} (h : ∀ i ∈ issues, i.location.line = none) :
    issues.filter (onLineOf m d) = [] := by
  rw [List.filter_eq_nil_iff]
  intro i hi
  rw [onLineOf_of_line_eq_none (h i hi)]
  exact Bool.false_ne_true

/-- Where names differ, an action is found for a declaration just if it has its name. -/
theorem find?_actions_eq_some_iff_name (hnames : (m.methods.map Method.name).Nodup)
    (hd : d ∈ m.methods) {a : Operation} :
    m.actions.find? (fun e => e.name = a.name) = some d ↔ d.isQuery = false ∧ a.name = d.name := by
  constructor
  · intro h
    obtain ⟨hquery, hname⟩ := (find?_actions_eq_some_iff.mp h).holds
    exact ⟨hquery, hname.symm⟩
  · rintro ⟨hquery, hname⟩
    rw [hname]
    exact find?_actions_name hnames (SourceModule.mem_actions_iff.mpr ⟨hd, hquery⟩)

section Lines

variable (hlines : (m.methods.map Method.line).Nodup) (hd : d ∈ m.methods)

include hlines hd

/-- An issue at the place of a method is on the line of that method and of no other. -/
theorem onLineOf_placeOf {e : Method} (he : e ∈ m.methods) (h : i.location = placeOf m e) :
    onLineOf m d i = decide (e = d) := by
  unfold onLineOf
  rw [h, decide_eq_decide]
  constructor
  · rintro ⟨-, hline⟩
    exact eq_of_line_eq hlines hd he (Option.some.inj hline)
  · rintro rfl
    exact ⟨rfl, rfl⟩

/-- Where lines differ, a method is kept once or not at all. -/
theorem filter_eq_self_methods (keep : Method → Bool) :
    (m.methods.filter keep).filter (fun e => e = d) = if keep d then [d] else [] := by
  have hone : m.methods.filter (fun e => e = d) = [d] := by
    have hkey : ∀ e ∈ m.methods, decide (e = d) = true → e.line = d.line := by
      intro e _ he
      rw [of_decide_eq_true he]
    rcases filter_eq_nil_or_singleton hlines hkey with hnil | ⟨e, -, he, hsingle⟩
    · have hno := List.filter_eq_nil_iff.mp hnil d hd
      simp at hno
    · rw [hsingle, of_decide_eq_true he]
  rw [List.filter_comm, hone]
  cases hkeep : keep d <;> simp [hkeep]

/-- A loop over methods places one issue at a line. -/
theorem filter_map_methods {keep : Method → Bool} {issue : Method → Issue}
    (hplace : ∀ e, (issue e).location = placeOf m e) :
    ((m.methods.filter keep).map issue).filter (onLineOf m d) =
      if keep d then [issue d] else [] := by
  have hcongr : (m.methods.filter keep).filter (onLineOf m d ∘ issue) =
      (m.methods.filter keep).filter (fun e => e = d) := by
    apply List.filter_congr
    intro e he
    exact onLineOf_placeOf hlines hd (List.mem_of_mem_filter he) (hplace e)
  rw [List.filter_map, hcongr, filter_eq_self_methods hlines hd]
  cases keep d <;> rfl

/-- The query issues on the line of a method are about the queries that it implements. -/
theorem filter_queries :
    (s.queries.flatMap (queryIssues s m)).filter (onLineOf m d) =
      (s.queries.filter fun q => implementing? m q = some d).flatMap (queryIssues s m) := by
  apply filter_flatMap_of_forall
  intro q hq i hi
  unfold queryIssues at hi
  split at hi
  · next hnone =>
    obtain rfl := List.mem_singleton.mp hi
    rw [hnone]
    exact onLineOf_of_line_eq_none rfl
  · next e he =>
    have hmem := (implementing?_eq_some_iff.mp he).mem
    have hplace : i.location = placeOf m e := by
      rcases eq_or_eq_of_mem_pair hi with rfl | rfl <;> rfl
    rw [onLineOf_placeOf hlines hd hmem hplace, he]
    simp only [Option.some.injEq]

variable (hnames : (m.methods.map Method.name).Nodup)

include hnames

/-- The defects on the line of a method are its own. -/
theorem filter_defects :
    ((m.methods.flatMap m.methodDefects).filterMap (moduleIssue? s m)).filter (onLineOf m d) =
      (m.methodDefects d).filterMap (moduleIssue? s m) := by
  have hplaced : ∀ e ∈ m.methods, ∀ i ∈ (m.methodDefects e).filterMap (moduleIssue? s m),
      onLineOf m d i = decide (e = d) := by
    intro e he i hi
    obtain ⟨x, hx, hissue⟩ := List.mem_filterMap.mp hi
    obtain ⟨-, hkind⟩ := SourceModule.mem_methodDefects_iff.mp hx
    apply onLineOf_placeOf hlines hd he
    rw [← placeNamed_name hnames he]
    unfold moduleIssue? at hissue
    split at hissue
    · cases hissue
    · rcases hkind with ⟨-, rfl⟩ | ⟨-, ⟨-, rfl⟩ | ⟨-, -, rfl⟩⟩
      · cases hissue
      · rw [← Option.some.inj hissue]
        rfl
      · rw [← Option.some.inj hissue]
        rfl
  have hone := filter_eq_self_methods hlines hd fun _ => true
  rw [List.filter_true, if_pos rfl] at hone
  rw [List.filterMap_flatMap, filter_flatMap_of_forall hplaced, hone, List.flatMap_singleton]

/-- The action issues on the line of a method are about the actions of its name. -/
theorem filter_actions :
    (s.actions.flatMap (actionIssues s m)).filter (onLineOf m d) =
      (s.actions.filter fun a => !d.isQuery && a.name = d.name).flatMap (actionIssues s m) := by
  apply filter_flatMap_of_forall
  intro a ha i hi
  have hlooked : (!d.isQuery && decide (a.name = d.name)) =
      decide (m.actions.find? (fun e => e.name = a.name) = some d) := by
    rw [Bool.eq_iff_iff, decide_eq_true_eq, find?_actions_eq_some_iff_name hnames hd]
    simp
  rw [hlooked]
  unfold actionIssues at hi
  split at hi
  · next hnone =>
    obtain rfl := List.mem_singleton.mp hi
    rw [hnone]
    exact onLineOf_of_line_eq_none rfl
  · next e he =>
    have hmem := (find?_actions_eq_some_iff.mp he).mem
    have hplace : i.location = placeOf m e := by
      rcases eq_or_eq_of_mem_pair hi with rfl | rfl <;> rfl
    rw [onLineOf_placeOf hlines hd hmem hplace, he]
    simp only [Option.some.injEq]

/-- At the line of a method stands what the loops say of it, and nothing else. -/
theorem filter_compare : (compare s m).filter (onLineOf m d) = lineReports s m d := by
  have hdefects : (defectIssues s m).filter (onLineOf m d) =
      (m.methodDefects d).filterMap (moduleIssue? s m) := by
    have hspec : (s.defects.map (specificationIssue s)).filter (onLineOf m d) = [] := by
      apply filter_onLineOf_of_forall
      intro i hi
      obtain ⟨x, -, rfl⟩ := List.mem_map.mp hi
      rfl
    have hdependencies : ((m.dependencies.map ConventionDefect.dependency).filterMap
        (moduleIssue? s m)).filter (onLineOf m d) = [] := by
      apply filter_onLineOf_of_forall
      intro i hi
      obtain ⟨x, hx, hissue⟩ := List.mem_filterMap.mp hi
      obtain ⟨path, -, rfl⟩ := List.mem_map.mp hx
      rw [← Option.some.inj hissue]
      rfl
    unfold defectIssues SourceModule.defects
    rw [List.filterMap_append, List.filter_append, List.filter_append, hspec, hdependencies,
      filter_defects hlines hd hnames]
    rfl
  have htype : (typeIssues s m).filter (onLineOf m d) = [] := by
    apply filter_onLineOf_of_forall
    intro i hi
    unfold typeIssues at hi
    split at hi
    · rw [List.mem_singleton.mp hi]
      rfl
    · split at hi
      · cases hi
      · rw [List.mem_singleton.mp hi]
        rfl
  unfold compare allActionIssues allQueryIssues SourceModule.actions lineReports
  simp only [List.filter_append, List.filter_filter, hdefects, htype, List.append_nil]
  rw [filter_actions hlines hd hnames, filter_queries hlines hd,
    filter_map_methods hlines hd fun _ => rfl, filter_map_methods hlines hd fun _ => rfl]

end Lines

/-! ## What the loops say -/

/-- The defects of a method are reported as such if the method is not declared. -/
theorem filterMap_moduleIssue?_methodDefects :
    (m.methodDefects d).filterMap (moduleIssue? s m) =
      if d.isQuery || isQueryShaped d.name || declares s d.name then []
      else
        (if d.handlesFailure then []
          else [methodIssue m .missingErrorHandling (.missingFailureHandling d.name) d.name]) ++
        if !d.isAsync && m.touchesPersistence d then
          [methodIssue m .signatureMismatch (.syncPersistence d.name) d.name]
        else [] := by
  unfold SourceModule.methodDefects
  cases d.isQuery with
  | true => rfl
  | false =>
    cases isQueryShaped d.name with
    | true => cases hdeclared : declares s d.name <;> simp [moduleIssue?]
    | false =>
      cases hdeclared : declares s d.name <;> cases d.handlesFailure <;>
        cases !d.isAsync && m.touchesPersistence d <;>
          simp [moduleIssue?, ConventionDefect.method?, hdeclared]

/-- An action that is found can lack a failure result and can reach storage without being
asynchronous. -/
theorem actionIssues_of_find? {a : Operation}
    (h : m.actions.find? (fun e => e.name = a.name) = some d) :
    actionIssues s m a =
      (if d.hasErrorResult then [] else [noErrorOutcome s m a d]) ++
        if !d.isAsync && m.touchesPersistence d then [notAsync m a d] else [] := by
  unfold actionIssues
  rw [h]

/-- A query that is found can lack the result type and the mark. -/
theorem queryIssues_of_implementing? {q : Operation} (h : implementing? m q = some d) :
    queryIssues s m q =
      (if isSequenceType d.returnType then [] else [notSequence s m q d]) ++
        if !isQueryName d.name && !isQueryShaped d.name then [namingError m d] else [] := by
  unfold queryIssues
  rw [h]

/-- A method that implements a query has its name, the marks aside. -/
theorem Implements.unmarked_eq {q : Operation} (h : Implements m q d) :
    unmarked q.name = unmarked d.name := by
  rcases h with hmarked | ⟨-, hagrees⟩
  · rw [hmarked.holds.2]
  · exact hagrees.holds.symm

/-- A method with the name of an action is declared. -/
theorem declares_of_action {a : Operation} (ha : a ∈ s.actions) (h : a.name = d.name) :
    declares s d.name = true :=
  declares_of_isSpecified (isSpecified_eq_true_iff.mpr (Or.inl ⟨a, ha, h⟩))

/-- The last letter of a message tells that it is about something else. -/
theorem saysNotAsync_eq_false (front tail : Text) (hmessage : i.message = front ++ tail)
    (hlast : (tail.getLast?.any fun c => c ≠ 'c') = true) : saysNotAsync i = false := by
  rw [← Bool.not_eq_true]
  intro hends
  obtain ⟨more, hmore⟩ := endsWith_iff.mp hends
  have hend : i.message.getLast? = some 'c' := by
    rw [← hmore, List.getLast?_append]
    rfl
  rw [hmessage, List.getLast?_append] at hend
  cases hc : tail.getLast? with
  | none => simp [hc] at hlast
  | some c =>
    rw [hc, Option.some_or] at hend
    simp [hc, Option.some.inj hend] at hlast

/-! ## At most once -/

section Counts

variable (hnames : (m.methods.map Method.name).Nodup) (hd : d ∈ m.methods)
  (hactions : (s.actions.map Operation.name).Nodup)
  (hqueries : (s.queries.map fun q => unmarked q.name).Nodup)

include hnames hd hactions hqueries

/-- The actions and the queries that a method is looked up for. -/
theorem looked_up_cases :
    ((s.actions.filter fun a => !d.isQuery && a.name = d.name) = [] ∨
      ∃ a ∈ s.actions, a.name = d.name ∧
        m.actions.find? (fun e => e.name = a.name) = some d ∧
        (s.actions.filter fun a => !d.isQuery && a.name = d.name) = [a]) ∧
    ((s.queries.filter fun q => implementing? m q = some d) = [] ∨
      ∃ q ∈ s.queries, implementing? m q = some d ∧
        (s.queries.filter fun q => implementing? m q = some d) = [q]) := by
  constructor
  · have hkey : ∀ a ∈ s.actions, (!d.isQuery && decide (a.name = d.name)) = true →
        a.name = d.name := by
      intro a _ ha
      rw [Bool.and_eq_true, decide_eq_true_eq] at ha
      exact ha.2
    refine (filter_eq_nil_or_singleton hactions hkey).imp_right ?_
    rintro ⟨a, ha, hkeep, hsingle⟩
    have hname := hkey a ha hkeep
    rw [Bool.and_eq_true, Bool.not_eq_true'] at hkeep
    exact ⟨a, ha, hname, (find?_actions_eq_some_iff_name hnames hd).mpr ⟨hkeep.1, hname⟩, hsingle⟩
  · have hkey : ∀ q ∈ s.queries, decide (implementing? m q = some d) = true →
        unmarked q.name = unmarked d.name := by
      intro q _ hq
      exact (implementing?_eq_some_iff.mp (of_decide_eq_true hq)).unmarked_eq
    refine (filter_eq_nil_or_singleton hqueries hkey).imp_right ?_
    rintro ⟨q, hq, hkeep, hsingle⟩
    exact ⟨q, hq, of_decide_eq_true hkeep, hsingle⟩

/-- What is said of an action is said of a declared or of an undeclared one, and once. -/
theorem countP_lineReports_le {p : Issue → Bool}
    (hdefect :
      p (methodIssue m .missingErrorHandling (.missingFailureHandling d.name) d.name) = false ∨
        p (methodIssue m .signatureMismatch (.syncPersistence d.name) d.name) = false)
    (haction : ∀ a, p (noErrorOutcome s m a d) = false ∨ p (notAsync m a d) = false)
    (hstray : p (unspecifiedAction m d) = false) (hsequence : ∀ q, p (notSequence s m q d) = false)
    (hnaming : p (namingError m d) = false) : (lineReports s m d).countP p ≤ 1 := by
  obtain ⟨hact, hquery⟩ := looked_up_cases hnames hd hactions hqueries
  have hothers : ((s.queries.filter fun q => implementing? m q = some d).flatMap
      (queryIssues s m)).countP p = 0 := by
    rcases hquery with hnil | ⟨q, -, hq, hsingle⟩
    · rw [hnil]
      rfl
    · rw [hsingle, List.flatMap_singleton, queryIssues_of_implementing? hq]
      exact countP_pair_eq_zero (hsequence q) hnaming _ _
  have hcondition : ∀ (x : Issue) (b : Bool), p x = false →
      (if b then [x] else []).countP p = 0 := by
    intro x b hx
    cases b <;> simp [hx]
  have hsum : (lineReports s m d).countP p =
      ((m.methodDefects d).filterMap (moduleIssue? s m)).countP p +
        ((s.actions.filter fun a => !d.isQuery && a.name = d.name).flatMap
          (actionIssues s m)).countP p := by
    unfold lineReports
    simp only [List.countP_append, hothers, hcondition _ _ hstray, hcondition _ _ hnaming]
    omega
  rw [hsum, filterMap_moduleIssue?_methodDefects]
  rcases hact with hnil | ⟨a, ha, hname, hfound, hsingle⟩
  · rw [hnil, List.flatMap_nil, List.countP_nil, Nat.add_zero]
    split
    · simp
    · exact countP_pair_le hdefect _ _
  · rw [hsingle, List.flatMap_singleton, actionIssues_of_find? hfound,
      if_pos (by rw [declares_of_action ha hname, Bool.or_true]), List.countP_nil, Nat.zero_add]
    exact countP_pair_le (haction a) _ _

/-- A reader without its mark is left to its own loop by the loop over queries. -/
theorem countP_isMisnaming_le : (lineReports s m d).countP isMisnaming ≤ 1 := by
  obtain ⟨hact, hquery⟩ := looked_up_cases hnames hd hactions hqueries
  have hdefects : ((m.methodDefects d).filterMap (moduleIssue? s m)).countP isMisnaming = 0 := by
    rw [filterMap_moduleIssue?_methodDefects]
    split
    · rfl
    · exact countP_pair_eq_zero rfl rfl _ _
  have hactionIssues : ((s.actions.filter fun a => !d.isQuery && a.name = d.name).flatMap
      (actionIssues s m)).countP isMisnaming = 0 := by
    rcases hact with hnil | ⟨a, -, -, hfound, hsingle⟩
    · rw [hnil]
      rfl
    · rw [hsingle, List.flatMap_singleton, actionIssues_of_find? hfound]
      exact countP_pair_eq_zero rfl rfl _ _
  have hstray : (if !isSpecified s d && !d.isQuery then [unspecifiedAction m d] else []).countP
      isMisnaming = 0 := by
    split <;> rfl
  unfold lineReports
  simp only [List.countP_append, hdefects, hactionIssues, hstray, Nat.zero_add]
  rcases hquery with hnil | ⟨q, -, hq, hsingle⟩
  · rw [hnil, List.flatMap_nil, List.countP_nil, Nat.zero_add]
    split <;> simp [isMisnaming, namingError]
  · rw [hsingle, List.flatMap_singleton, queryIssues_of_implementing? hq]
    cases hshape : isQueryShaped d.name with
    | true =>
      rw [Bool.not_true, Bool.and_false, if_neg Bool.false_ne_true, List.append_nil]
      have hsequence : (if isSequenceType d.returnType then [] else [notSequence s m q d]).countP
          isMisnaming = 0 := by
        split <;> rfl
      rw [hsequence, Nat.zero_add]
      split <;> simp [isMisnaming, namingError]
    | false =>
      rw [Bool.false_and, if_neg Bool.false_ne_true, List.countP_nil, Nat.add_zero]
      exact countP_pair_le (Or.inl rfl) _ _

end Counts

/-- An error about the name of a method is found at its line just if the method has no mark and is
shaped like a query or looked up for one. -/
theorem exists_isMisnaming_iff (hmarks : MarkedByName m)
    (hlines : (m.methods.map Method.line).Nodup) (hd : d ∈ m.methods) :
    (∃ i ∈ compare s m, onLineOf m d i = true ∧ isMisnaming i = true) ↔
      d.isQuery = false ∧
        (isQueryShaped d.name = true ∨ ∃ q ∈ s.queries, Implements m q d) := by
  have hmark : d.isQuery = isQueryName d.name := hmarks d hd
  have hat : onLineOf m d (namingError m d) = true := by simp [onLineOf, namingError, placeOf]
  constructor
  · rintro ⟨i, hi, hline, hkind⟩
    cases mem_compare_iff.mp hi with
    | @unmarkedQuery q e hq he hname hshape =>
      have himplements := implementing?_eq_some_iff.mp he
      rw [onLineOf_placeOf hlines hd himplements.mem rfl, decide_eq_true_eq] at hline
      subst hline
      exact ⟨hmark.trans hname, Or.inr ⟨q, hq, himplements⟩⟩
    | @unmarkedReader e he hshape =>
      obtain ⟨hmem, hquery⟩ := SourceModule.mem_actions_iff.mp he
      rw [onLineOf_placeOf hlines hd hmem rfl, decide_eq_true_eq] at hline
      subst hline
      exact ⟨hquery, Or.inl hshape⟩
    | specificationDefect _ =>
      rw [onLineOf_of_line_eq_none rfl] at hline
      cases hline
    | _ => cases hkind
  · rintro ⟨hquery, hwhy⟩
    cases hshape : isQueryShaped d.name with
    | true =>
      have haction : d ∈ m.actions := SourceModule.mem_actions_iff.mpr ⟨hd, hquery⟩
      exact ⟨_, mem_compare_iff.mpr (.unmarkedReader haction hshape), hat, rfl⟩
    | false =>
      rw [hshape] at hwhy
      obtain ⟨q, hq, himplements⟩ := hwhy.resolve_left Bool.false_ne_true
      have hfinds : Finds s m (namingError m d) :=
        .unmarkedQuery hq (implementing?_eq_some_iff.mpr himplements) (hmark.symm.trans hquery)
          hshape
      exact ⟨_, mem_compare_iff.mpr hfinds, hat, rfl⟩

/-- Let actions differ in their names, queries in their unmarked names, and methods in their names
and lines. Then no line of a method has two issues about error handling, two that say it is not
asynchronous, or two errors about its name; and it has one of the latter just if the method has no
mark and is shaped like a query or looked up for one. -/
theorem no_finding_reported_twice (s : Specification) (m : SourceModule) (hmarks : MarkedByName m)
    (hnames : (m.methods.map Method.name).Nodup) (hlines : (m.methods.map Method.line).Nodup)
    (hactions : (s.actions.map Operation.name).Nodup)
    (hqueries : (s.queries.map fun q => unmarked q.name).Nodup) (d : Method)
    (hd : d ∈ m.methods) :
    (compare s m).countP (fun i => onLineOf m d i && saysUnhandled i) ≤ 1 ∧
      (compare s m).countP (fun i => onLineOf m d i && saysNotAsync i) ≤ 1 ∧
      (compare s m).countP (fun i => onLineOf m d i && isMisnaming i) ≤ 1 ∧
      ((∃ i ∈ compare s m, onLineOf m d i = true ∧ isMisnaming i = true) ↔
        d.isQuery = false ∧
          (isQueryShaped d.name = true ∨ ∃ q ∈ s.queries, Implements m q d)) := by
  have hcount : ∀ p : Issue → Bool, (compare s m).countP (fun i => onLineOf m d i && p i) =
      (lineReports s m d).countP p := by
    intro p
    rw [← filter_compare hlines hd hnames, List.countP_filter]
    simp only [Bool.and_comm]
  refine ⟨?_, ?_, ?_, exists_isMisnaming_iff hmarks hlines hd⟩
  · rw [hcount]
    exact countP_lineReports_le hnames hd hactions hqueries (Or.inr rfl) (fun _ => Or.inr rfl) rfl
      (fun _ => rfl) rfl
  · rw [hcount]
    apply countP_lineReports_le hnames hd hactions hqueries
    · left
      apply saysNotAsync_eq_false ("Action '" ++ d.name) _ rfl
      decide
    · intro a
      left
      apply saysNotAsync_eq_false ("Action '" ++ a.name) _ rfl
      decide
    · apply saysNotAsync_eq_false ("Unspecified action '" ++ d.name) _ rfl
      decide
    · intro q
      apply saysNotAsync_eq_false ("Query '" ++ d.name) _ rfl
      decide
    · apply saysNotAsync_eq_false _ "'" rfl
      decide
  · rw [hcount]
    exact countP_isMisnaming_le hnames hd hactions hqueries

/-- A class whose action and query lack all that is asked of them, with a reader that is not
declared. -/
def hastyModule : SourceModule :=
  { teamModule with
    methods :=
      [{ (default : Method) with name := "create", body := "this.db.insert(name);", line := 3 },
        membersMethod, archiveMethod, { (default : Method) with name := "listAll", line := 19 }] }

/-- The hasty module of a team has each of its defects reported once on its line. -/
theorem hasty_module_reported_once :
    MarkedByName hastyModule ∧ (hastyModule.methods.map Method.name).Nodup ∧
      (hastyModule.methods.map Method.line).Nodup ∧
      (teamSpecification.actions.map Operation.name).Nodup ∧
      (teamSpecification.queries.map fun q => unmarked q.name).Nodup ∧
      (compare teamSpecification hastyModule).countP saysUnhandled = 2 ∧
      (compare teamSpecification hastyModule).countP saysNotAsync = 2 ∧
      (compare teamSpecification hastyModule).countP isMisnaming = 2 ∧
      (∀ d ∈ hastyModule.methods,
        (compare teamSpecification hastyModule).countP
            (fun i => onLineOf hastyModule d i && saysUnhandled i) ≤ 1 ∧
          (compare teamSpecification hastyModule).countP
            (fun i => onLineOf hastyModule d i && saysNotAsync i) ≤ 1 ∧
          (compare teamSpecification hastyModule).countP
            (fun i => onLineOf hastyModule d i && isMisnaming i) ≤ 1) := by
  have hmarks : MarkedByName hastyModule := by decide +kernel
  have hnames : (hastyModule.methods.map Method.name).Nodup := by decide +kernel
  have hlines : (hastyModule.methods.map Method.line).Nodup := by decide
  have hactions : (teamSpecification.actions.map Operation.name).Nodup := by decide +kernel
  have hqueries : (teamSpecification.queries.map fun q => unmarked q.name).Nodup := by
    decide +kernel
  refine ⟨hmarks, hnames, hlines, hactions, hqueries, by decide +kernel, by decide +kernel,
    by decide +kernel, ?_⟩
  intro d hd
  obtain ⟨hunhandled, hsync, hnaming, -⟩ := no_finding_reported_twice teamSpecification hastyModule
    hmarks hnames hlines hactions hqueries d hd
  exact ⟨hunhandled, hsync, hnaming⟩

end Concordance.Battery
