import Concordance.Proofs.Aligned
import Concordance.Proofs.Lists
import Concordance.Report.Basic

set_option autoImplicit false

/-!
# The verdict does not depend on the order of declarations

The battery looks things up by name and takes the first that fits, so that the order of methods
decides between two of them that fit alike. If no two methods have one name, query marks aside, then
nothing is left to decide: every lookup has at most one answer, and gives it wherever that stands
(`find?_eq_of_perm`). The issues of each action, of each query and of each defect are then the same
in every order, and only their sequence changes.
-/

namespace Concordance

/-- The specification with its operations listed as given. -/
def Specification.withOperations (s : Specification) (actions queries : List Operation) :
    Specification :=
  { s with actions := actions, queries := queries }

/-- The module with its methods listed as given. -/
def SourceModule.withMethods (m : SourceModule) (methods : List Method) : SourceModule :=
  { m with methods := methods }

namespace Battery

/-- No two methods have one name, query marks aside. -/
def DistinctNames (m : SourceModule) : Prop := (m.methods.map fun d => unmarked d.name).Nodup

instance (m : SourceModule) : Decidable (DistinctNames m) :=
  inferInstanceAs (Decidable (List.Nodup _))

variable {s : Specification} {m : SourceModule} {actions queries : List Operation}
  {methods : List Method}

/-- Methods with distinct names are told apart by these, the marks aside. -/
theorem DistinctNames.eq_of_unmarked (h : DistinctNames m) {d e : Method} (hd : d ∈ m.methods)
    (he : e ∈ m.methods) (hname : unmarked d.name = unmarked e.name) : d = e :=
  List.inj_on_of_nodup_map h hd he hname

/-! ## Lookups among reordered methods -/

section Methods

variable (hmethods : m.methods.Perm methods) (hnames : DistinctNames m)

include hmethods

/-- The actions are the same in another order. -/
theorem perm_actions_withMethods : m.actions.Perm (m.withMethods methods).actions :=
  hmethods.filter _

/-- The defects of the module are the same in another order. -/
theorem perm_moduleDefects : m.defects.Perm (m.withMethods methods).defects :=
  (List.Perm.refl _).append (hmethods.flatMap_right _)

include hnames

/-- Among some of the methods, a name is found in any order. -/
theorem find?_name_withMethods (keep : Method → Bool) (name : Text) :
    ((m.withMethods methods).methods.filter keep).find? (fun d => d.name = name) =
      (m.methods.filter keep).find? (fun d => d.name = name) := by
  refine (find?_eq_of_perm (hmethods.filter keep) ?_).symm
  intro d hd e he hdname hename
  rw [decide_eq_true_eq] at hdname hename
  exact hnames.eq_of_unmarked (List.mem_of_mem_filter hd) (List.mem_of_mem_filter he)
    (by rw [hdname, hename])

/-- A name is placed as before. -/
theorem placeNamed_withMethods (name : Text) :
    placeNamed (m.withMethods methods) name = placeNamed m name := by
  have hfind := find?_name_withMethods hmethods hnames (fun _ => true) name
  rw [List.filter_true, List.filter_true] at hfind
  unfold placeNamed SourceModule.method?
  rw [hfind]
  rfl

/-- A query is implemented by the same method. -/
theorem implementing?_withMethods (q : Operation) :
    implementing? (m.withMethods methods) q = implementing? m q := by
  have hplain : (m.withMethods methods).methods.find? (fun d => unmarked d.name = unmarked q.name) =
      m.methods.find? (fun d => unmarked d.name = unmarked q.name) := by
    refine (find?_eq_of_perm hmethods ?_).symm
    intro d hd e he hdname hename
    rw [decide_eq_true_eq] at hdname hename
    exact hnames.eq_of_unmarked hd he (hdname.trans hename.symm)
  unfold implementing? SourceModule.queries
  rw [find?_name_withMethods hmethods hnames, hplain]

/-- What is said of an action does not depend on the order of the methods. -/
theorem actionIssues_withMethods (a : Operation) :
    actionIssues s (m.withMethods methods) a = actionIssues s m a := by
  unfold actionIssues SourceModule.actions
  rw [find?_name_withMethods hmethods hnames]
  rfl

/-- What is said of a query does not depend on the order of the methods. -/
theorem queryIssues_withMethods (q : Operation) :
    queryIssues s (m.withMethods methods) q = queryIssues s m q := by
  unfold queryIssues
  rw [implementing?_withMethods hmethods hnames]
  rfl

/-- What is said of a defect does not depend on the order of the methods. -/
theorem moduleIssue?_withMethods (x : ConventionDefect) :
    moduleIssue? s (m.withMethods methods) x = moduleIssue? s m x := by
  unfold moduleIssue? methodIssue
  simp only [placeNamed_withMethods hmethods hnames]
  rfl

end Methods

/-! ## What a specification with reordered operations says -/

section Operations

variable (hactions : s.actions.Perm actions) (hqueries : s.queries.Perm queries)

include hactions hqueries

/-- What is declared does not depend on the order of the operations. -/
theorem declares_withOperations (name : Text) :
    declares (s.withOperations actions queries) name = declares s name :=
  ((hactions.append hqueries).any_eq).symm

/-- What is specified does not depend on the order of the operations. -/
theorem isSpecified_withOperations (d : Method) :
    isSpecified (s.withOperations actions queries) d = isSpecified s d := by
  rw [Bool.eq_iff_iff, isSpecified_eq_true_iff, isSpecified_eq_true_iff]
  unfold Specification.withOperations
  simp only [hactions.mem_iff, hqueries.mem_iff]

/-- What is said of a defect does not depend on the order of the operations. -/
theorem moduleIssue?_withOperations (x : ConventionDefect) :
    moduleIssue? (s.withOperations actions queries) m x = moduleIssue? s m x := by
  have hdeclares : declares (s.withOperations actions queries) = declares s :=
    funext (declares_withOperations hactions hqueries)
  unfold moduleIssue?
  rw [hdeclares]

/-- The defects of the specification are the same in another order. -/
theorem perm_specificationDefects :
    s.defects.Perm (s.withOperations actions queries).defects := by
  unfold Specification.defects Specification.withOperations
  rw [hactions.isEmpty_eq]
  exact (List.Perm.refl _).append ((hqueries.filter _).map _)

end Operations

/-! ## The steps of the battery -/

section Steps

variable (hactions : s.actions.Perm actions) (hqueries : s.queries.Perm queries)
  (hmethods : m.methods.Perm methods) (hnames : DistinctNames m)

include hactions hqueries hmethods hnames

/-- The issues about defects are the same in another order. -/
theorem perm_defectIssues :
    (defectIssues s m).Perm
      (defectIssues (s.withOperations actions queries) (m.withMethods methods)) := by
  have hissue : moduleIssue? (s.withOperations actions queries) (m.withMethods methods) =
      moduleIssue? s m := by
    funext x
    rw [moduleIssue?_withOperations hactions hqueries, moduleIssue?_withMethods hmethods hnames]
  unfold defectIssues
  rw [hissue]
  exact ((perm_specificationDefects hactions hqueries).map _).append
    ((perm_moduleDefects hmethods).filterMap _)

/-- The issues about actions are the same in another order. -/
theorem perm_allActionIssues :
    (allActionIssues s m).Perm
      (allActionIssues (s.withOperations actions queries) (m.withMethods methods)) := by
  have hissues : actionIssues (s.withOperations actions queries) (m.withMethods methods) =
      actionIssues s m :=
    funext (actionIssues_withMethods hmethods hnames)
  have hspecified : isSpecified (s.withOperations actions queries) = isSpecified s :=
    funext (isSpecified_withOperations hactions hqueries)
  unfold allActionIssues
  rw [hissues, hspecified]
  exact (hactions.flatMap_right _).append (((perm_actions_withMethods hmethods).filter _).map _)

omit hactions in
/-- The issues about queries are the same in another order. -/
theorem perm_allQueryIssues :
    (allQueryIssues s m).Perm
      (allQueryIssues (s.withOperations actions queries) (m.withMethods methods)) := by
  have hissues : queryIssues (s.withOperations actions queries) (m.withMethods methods) =
      queryIssues s m :=
    funext (queryIssues_withMethods hmethods hnames)
  unfold allQueryIssues
  rw [hissues]
  exact (hqueries.flatMap_right _).append (((perm_actions_withMethods hmethods).filter _).map _)

end Steps

/-- A summary does not depend on the order of the issues. -/
theorem ofIssues_eq_of_perm {is js : List Issue} (h : is.Perm js) :
    Summary.ofIssues is = Summary.ofIssues js := by
  have hcount : ∀ severity, Summary.countOf severity is = Summary.countOf severity js :=
    fun _ => h.countP_eq _
  unfold Summary.ofIssues
  simp only [hcount]

/-- If no two methods have one name, query marks aside, then the battery reports the same issues for
the methods, actions and queries in any order, and so the same counts and the same score. -/
theorem compare_perm_of_reordered (s : Specification) (m : SourceModule)
    (actions queries : List Operation) (methods : List Method) (hnames : DistinctNames m)
    (hactions : s.actions.Perm actions) (hqueries : s.queries.Perm queries)
    (hmethods : m.methods.Perm methods) :
    (compare s m).Perm (compare (s.withOperations actions queries) (m.withMethods methods)) ∧
      Summary.ofIssues (compare s m) =
        Summary.ofIssues (compare (s.withOperations actions queries) (m.withMethods methods)) := by
  have hcompare :
      (compare s m).Perm (compare (s.withOperations actions queries) (m.withMethods methods)) :=
    (((perm_defectIssues hactions hqueries hmethods hnames).append
      (perm_allActionIssues hactions hqueries hmethods hnames)).append
      (perm_allQueryIssues hqueries hmethods hnames)).append (List.Perm.refl _)
  exact ⟨hcompare, ofIssues_eq_of_perm hcompare⟩

/-- A class with two actions that the specification of teams does not declare. -/
def strayModule : SourceModule :=
  teamModule.withMethods
    [{ (default : Method) with name := "rename", line := 3 },
      { (default : Method) with name := "archive", line := 7 },
      { (default : Method) with name := "members", returnType := "Member[]", line := 11 }]

/-- A module with its methods reversed has the same issues in another order. -/
theorem stray_module_reversed :
    DistinctNames strayModule ∧
      compare teamSpecification strayModule ≠
        compare teamSpecification (strayModule.withMethods strayModule.methods.reverse) ∧
      (compare teamSpecification strayModule).Perm
        (compare teamSpecification (strayModule.withMethods strayModule.methods.reverse)) := by
  have hnames : DistinctNames strayModule := by decide +kernel
  refine ⟨hnames, by decide +kernel, ?_⟩
  exact (compare_perm_of_reordered teamSpecification strayModule teamSpecification.actions
    teamSpecification.queries strayModule.methods.reverse hnames (List.Perm.refl _)
    (List.Perm.refl _) (List.reverse_perm _).symm).1

end Battery

end Concordance
