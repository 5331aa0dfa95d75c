import Concordance.Proofs.Listing
import Concordance.Proofs.UndeclaredActions

set_option autoImplicit false

/-!
# No defect is lost between the steps

The first step passes over the defects of methods that the specification declares, and counts on the
steps for actions and queries to report them. These look at other facts: at error results where the
first step looks at any handling of failure, and at the methods that they look up where the first
step goes through all of them. Nothing is lost as long as a method with a defect is either declared
as an action of its own name, in which case it is the one looked up for that action, or not declared
at all. A method that is declared under its name with marks added or taken away is in neither case,
and there the hand-over fails (`defect_represented_iff_seen_to`).
-/

namespace Concordance.Battery

open Text

/-! ## What stands for a defect -/

/-- An issue is placed at a method of a name. -/
def IsPlacedAt (m : SourceModule) (name : Text) (i : Issue) : Prop :=
  ∃ d ∈ m.methods, d.name = name ∧ i.location = placeOf m d

/-- An issue says that something reaches storage without being asynchronous. -/
def saysNotAsync (i : Issue) : Bool :=
  endsWith "accesses the database but is not async" i.message

/-- An issue reports a defect of the module. -/
def Represents (m : SourceModule) (i : Issue) : ConventionDefect → Prop
  | .dependency path =>
    i.severity = .warning ∧ i.category = .dependencyViolation ∧ path <:+: i.message
  | .queryNaming name =>
    i.severity = .error ∧ i.category = .namingConvention ∧ IsPlacedAt m name i
  | .missingFailureHandling name => i.category = .missingErrorHandling ∧ IsPlacedAt m name i
  | .syncPersistence name =>
    i.category = .signatureMismatch ∧ saysNotAsync i = true ∧ IsPlacedAt m name i

/-- A name is that of an action, or is not declared at all, query marks aside. -/
def IsClearlyDeclared (s : Specification) (name : Text) : Prop :=
  (∃ a ∈ s.actions, a.name = name) ∨
    ∀ o ∈ s.actions ++ s.queries, unmarked o.name ≠ unmarked name

/-- A defect is about an import or a reader without its mark, or about a method that is clearly
declared. -/
def IsSeenTo (s : Specification) : ConventionDefect → Prop
  | .dependency _ => True
  | .queryNaming _ => True
  | .missingFailureHandling name => IsClearlyDeclared s name
  | .syncPersistence name => IsClearlyDeclared s name

variable {s : Specification} {m : SourceModule} {d : Method} {i : Issue}

/-! ## Names and places -/

/-- A name is not declared just if no operation has it, the marks aside. -/
theorem declares_eq_false_iff {name : Text} :
    declares s name = false ↔ ∀ o ∈ s.actions ++ s.queries, unmarked o.name ≠ unmarked name := by
  unfold declares
  rw [List.any_eq_false]
  simp only [decide_eq_true_eq, ne_eq]

/-- A method that handles no failure has no failure result. -/
theorem hasErrorResult_eq_false (h : d.handlesFailure = false) : d.hasErrorResult = false := by
  unfold Method.handlesFailure at h
  rw [Bool.or_eq_false_iff] at h
  exact h.1

section Names

variable (hnames : (m.methods.map Method.name).Nodup)

include hnames

/-- Where names differ, a method is told by its name. -/
theorem eq_of_name_eq {e : Method} (hd : d ∈ m.methods) (he : e ∈ m.methods)
    (h : e.name = d.name) : e = d :=
  List.inj_on_of_nodup_map hnames he hd h

/-- A search for the name of one of the methods ends at this method. -/
theorem find?_name_eq_some {methods : List Method} (hsub : ∀ e ∈ methods, e ∈ m.methods)
    (hd : d ∈ methods) : methods.find? (fun e => e.name = d.name) = some d := by
  cases hfound : methods.find? (fun e => e.name = d.name) with
  | none =>
    have hno := List.find?_eq_none.mp hfound d hd
    simp at hno
  | some e =>
    have hname : e.name = d.name := by simpa using List.find?_some hfound
    have hmem := List.mem_of_find?_eq_some hfound
    rw [eq_of_name_eq hnames (hsub d hd) (hsub e hmem) hname]

/-- Where names differ, an action is found by its name. -/
theorem find?_actions_name (hd : d ∈ m.actions) :
    m.actions.find? (fun e => e.name = d.name) = some d :=
  find?_name_eq_some hnames (fun _ he => (SourceModule.mem_actions_iff.mp he).1) hd

/-- Where names differ, a name is placed where its method is. -/
theorem placeNamed_name (hd : d ∈ m.methods) : placeNamed m d.name = placeOf m d := by
  unfold placeNamed SourceModule.method?
  rw [find?_name_eq_some hnames (fun _ he => he) hd]
  rfl

end Names

/-! ## From defects to issues -/

section Reported

variable (hnames : (m.methods.map Method.name).Nodup) (hd : d ∈ m.actions)
  (hclear : IsClearlyDeclared s d.name)

include hnames hd hclear

/-- An action that handles no failure is reported at its place. -/
theorem exists_issue_of_unhandled (hshape : isQueryShaped d.name = false)
    (hfailure : d.handlesFailure = false) :
    ∃ i ∈ compare s m, i.category = .missingErrorHandling ∧ i.location = placeOf m d := by
  have hmem := (SourceModule.mem_actions_iff.mp hd).1
  rcases hclear with ⟨a, ha, hname⟩ | hundeclared
  · -- The step for actions asks for an error result, of which handling of failure is a weaker form.
    have hfound : m.actions.find? (fun e => e.name = a.name) = some d := by
      rw [hname]
      exact find?_actions_name hnames hd
    have hfinds : Finds s m (noErrorOutcome s m a d) :=
      .noErrorOutcome ha hfound (hasErrorResult_eq_false hfailure)
    exact ⟨_, mem_compare_iff.mpr hfinds, rfl, rfl⟩
  · have hfinds := Finds.failureUnhandled hd hshape (declares_eq_false_iff.mpr hundeclared) hfailure
    exact ⟨_, mem_compare_iff.mpr hfinds, rfl, placeNamed_name hnames hmem⟩

/-- An action that reaches storage without being asynchronous is reported at its place. -/
theorem exists_issue_of_sync (hshape : isQueryShaped d.name = false) (hasync : d.isAsync = false)
    (htouch : m.touchesPersistence d = true) :
    ∃ i ∈ compare s m,
      i.category = .signatureMismatch ∧ saysNotAsync i = true ∧ i.location = placeOf m d := by
  have hmem := (SourceModule.mem_actions_iff.mp hd).1
  have hmessage : ∀ name : Text, endsWith "accesses the database but is not async"
      ("Action '" ++ name ++ "' accesses the database but is not async") = true := by
    intro name
    rw [endsWith_iff]
    exact ⟨"Action '" ++ name ++ "' ", by simp⟩
  rcases hclear with ⟨a, ha, hname⟩ | hundeclared
  · have hfound : m.actions.find? (fun e => e.name = a.name) = some d := by
      rw [hname]
      exact find?_actions_name hnames hd
    have hfinds : Finds s m (notAsync m a d) := .notAsync ha hfound hasync htouch
    exact ⟨_, mem_compare_iff.mpr hfinds, rfl, hmessage a.name, rfl⟩
  · have hfinds :=
      Finds.syncPersistence hd hshape (declares_eq_false_iff.mpr hundeclared) hasync htouch
    exact ⟨_, mem_compare_iff.mpr hfinds, rfl, hmessage d.name, placeNamed_name hnames hmem⟩

end Reported

/-- A defect that is seen to is represented by an issue. -/
theorem exists_represents (hnames : (m.methods.map Method.name).Nodup) {x : ConventionDefect}
    (hx : x ∈ m.defects) (h : IsSeenTo s x) : ∃ i ∈ compare s m, Represents m i x := by
  rcases SourceModule.mem_defects_iff.mp hx with ⟨path, hpath, rfl⟩ | ⟨d, hd, hmethod⟩
  · refine ⟨dependencyIssue m path, mem_compare_iff.mpr (.dependency hpath), rfl, rfl, ?_⟩
    show path <:+: ("Concept imports another concept: " : Text) ++ path
    exact (List.suffix_append _ path).isInfix
  · obtain ⟨hquery, hkind⟩ := SourceModule.mem_methodDefects_iff.mp hmethod
    have haction : d ∈ m.actions := SourceModule.mem_actions_iff.mpr ⟨hd, hquery⟩
    rcases hkind with ⟨hshape, rfl⟩ | ⟨hshape, ⟨hfailure, rfl⟩ | ⟨hasync, htouch, rfl⟩⟩
    · exact ⟨namingError m d, mem_compare_iff.mpr (.unmarkedReader haction hshape), rfl, rfl, d, hd,
        rfl, rfl⟩
    · obtain ⟨i, hi, hcategory, hplace⟩ :=
        exists_issue_of_unhandled hnames haction h hshape hfailure
      exact ⟨i, hi, hcategory, d, hd, rfl, hplace⟩
    · obtain ⟨i, hi, hcategory, hmessage, hplace⟩ :=
        exists_issue_of_sync hnames haction h hshape hasync htouch
      exact ⟨i, hi, hcategory, hmessage, d, hd, rfl, hplace⟩

/-! ## From issues to defects -/

section Located

variable (hlines : (m.methods.map Method.line).Nodup) (hd : d ∈ m.methods) (hi : Finds s m i)
  (hplace : i.location = placeOf m d)

include hlines hd

/-- Where lines differ, methods are told apart by their places. -/
theorem eq_of_placeOf_eq {e : Method} (he : e ∈ m.methods) (h : placeOf m e = placeOf m d) :
    e = d := by
  apply eq_of_line_eq hlines hd he
  exact Option.some.inj (congrArg Location.line h)

/-- A method at whose place a defect of an undeclared method is reported is clearly declared. -/
theorem undeclared_of_methodIssue {e : Method} {category : Category} {x : ConventionDefect}
    (hdeclared : declares s e.name = false)
    (h : (methodIssue m category x e.name).location = placeOf m d) :
    IsClearlyDeclared s d.name := by
  have hline : (methodIssue m category x e.name).location.line = some d.line := by rw [h]; rfl
  right
  rw [← declares_eq_false_iff, ← declares_eq_of_methodIssue_line hlines hd hline]
  exact hdeclared

/-- A method that is found for a declared action is clearly declared. -/
theorem declared_of_find? {a : Operation} {e : Method} (ha : a ∈ s.actions)
    (he : m.actions.find? (fun e => e.name = a.name) = some e) (h : placeOf m e = placeOf m d) :
    IsClearlyDeclared s d.name := by
  have himplements := find?_actions_eq_some_iff.mp he
  have hsame := eq_of_placeOf_eq hlines hd himplements.mem h
  left
  exact ⟨a, ha, by rw [← hsame, himplements.holds.2]⟩

include hi hplace

/-- Missing error handling is reported by two findings only, each of a clearly declared method. -/
theorem isClearlyDeclared_of_unhandled (hcategory : i.category = .missingErrorHandling) :
    IsClearlyDeclared s d.name := by
  cases hi with
  | failureUnhandled _ _ hdeclared _ => exact undeclared_of_methodIssue hlines hd hdeclared hplace
  | noErrorOutcome ha he _ => exact declared_of_find? hlines hd ha he hplace
  | @specificationDefect x _ => cases x <;> cases hcategory
  | _ => cases hcategory

/-- An issue that says a method is not asynchronous is at the place of a clearly declared one. -/
theorem isClearlyDeclared_of_notAsync (hcategory : i.category = .signatureMismatch)
    (hmessage : saysNotAsync i = true) : IsClearlyDeclared s d.name := by
  cases hi with
  | syncPersistence _ _ hdeclared _ _ =>
    exact undeclared_of_methodIssue hlines hd hdeclared hplace
  | notAsync ha he _ _ => exact declared_of_find? hlines hd ha he hplace
  | @unspecifiedAction e _ _ =>
    -- Of the same category, but its message ends with a quote.
    have hend := (endsWith_iff.mp hmessage).getLast (by decide)
    simp [unspecifiedAction] at hend
  | @specificationDefect x _ => cases x <;> cases hcategory
  | _ => cases hcategory

end Located

/-- A defect that an issue represents is seen to. -/
theorem isSeenTo_of_represents (hlines : (m.methods.map Method.line).Nodup) {x : ConventionDefect}
    (hi : i ∈ compare s m) (h : Represents m i x) : IsSeenTo s x := by
  have hfinds := mem_compare_iff.mp hi
  cases x with
  | dependency path => trivial
  | queryNaming name => trivial
  | missingFailureHandling name =>
    obtain ⟨hcategory, d, hd, rfl, hplace⟩ := h
    exact isClearlyDeclared_of_unhandled hlines hd hfinds hplace hcategory
  | syncPersistence name =>
    obtain ⟨hcategory, hmessage, d, hd, rfl, hplace⟩ := h
    exact isClearlyDeclared_of_notAsync hlines hd hfinds hplace hcategory hmessage

/-- Let no two methods have one name. A defect of the module is reported if it is about an import,
about a reader without its mark, or about a method that is declared as an action of its very name or
not at all: by a warning that quotes the import, or by an issue of its kind at the method's line.
And if no two methods have one line, no other defect is. -/
theorem defect_represented_iff_seen_to (s : Specification) (m : SourceModule)
    (hnames : (m.methods.map Method.name).Nodup) (x : ConventionDefect) (hx : x ∈ m.defects) :
    (IsSeenTo s x → ∃ i ∈ compare s m, Represents m i x) ∧
      ((m.methods.map Method.line).Nodup →
        (∃ i ∈ compare s m, Represents m i x) → IsSeenTo s x) := by
  constructor
  · exact exists_represents hnames hx
  · rintro hlines ⟨i, hi, hrepresents⟩
    exact isSeenTo_of_represents hlines hi hrepresents

/-- The action archive of the team has an issue for its defect, and the unmarked reader members has
none. -/
theorem archive_represented_and_members_not :
    (archivingModule.methods.map Method.name).Nodup ∧
      (archivingModule.methods.map Method.line).Nodup ∧
      ConventionDefect.syncPersistence "archive" ∈ archivingModule.defects ∧
      ConventionDefect.syncPersistence "members" ∈ archivingModule.defects ∧
      (∃ i ∈ compare teamSpecification archivingModule,
        Represents archivingModule i (.syncPersistence "archive")) ∧
      ¬ ∃ i ∈ compare teamSpecification archivingModule,
        Represents archivingModule i (.syncPersistence "members") := by
  have hnames : (archivingModule.methods.map Method.name).Nodup := by decide +kernel
  have hlines : (archivingModule.methods.map Method.line).Nodup := by decide
  have harchive : ConventionDefect.syncPersistence "archive" ∈ archivingModule.defects := by
    decide +kernel
  have hmembers : ConventionDefect.syncPersistence "members" ∈ archivingModule.defects := by
    decide +kernel
  refine ⟨hnames, hlines, harchive, hmembers, ?_, ?_⟩
  · apply (defect_represented_iff_seen_to teamSpecification archivingModule hnames _ harchive).1
    right
    decide +kernel
  · intro h
    have hclear := (defect_represented_iff_seen_to teamSpecification archivingModule hnames _
      hmembers).2 hlines h
    rcases hclear with ⟨a, ha, hname⟩ | hundeclared
    · revert a
      decide +kernel
    · revert hundeclared
      decide +kernel

end Concordance.Battery
