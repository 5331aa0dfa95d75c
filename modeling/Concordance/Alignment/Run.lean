import Concordance.Alignment.Battery
import Concordance.Alignment.Loading
import Concordance.Alignment.Pairing
import Concordance.Assessment.Assessor
import Concordance.Report.Basic
import Concordance.Text.Alphabetic

set_option autoImplicit false

/-!
# Runs

A run checks each specification of a project against its implementation. There is a report for each
specification, in order, and then one for each module that no specification took. Only a missing
directory of specifications or implementations ends a run. What the reports are about is settled
before the first of them is made, so an assessor has no say in it. A pair is shown with the related
files that mention its concept. A text mentions one of several names where one of them stands
between two boundaries of words. At a boundary a character of words meets another one, or the
beginning or the end of the text.
-/

namespace Concordance

namespace Text

/-- Whether the first character belongs to words. -/
def beginsWithWordChar : Text → Bool
  | [] => false
  | c :: _ => isWordChar c

/-- Whether a boundary of words comes after a character and before a text. -/
def isBoundary (last : Option Char) (t : Text) : Bool :=
  last.any isWordChar != beginsWithWordChar t

/-- Whether one of the names, which are tried in turn, comes first in what follows a character and
stands between boundaries. -/
def startsWithMention (names : List Text) (last : Option Char) (t : Text) : Bool :=
  isBoundary last t && names.any fun name =>
    (after? name t).any fun rest => isBoundary (name.getLast?.or last) rest

/-- Whether what follows a character mentions one of the names. -/
def mentionsAfter (names : List Text) : (last : Option Char) → Text → Bool
  | last, [] => startsWithMention names last []
  | last, c :: t => startsWithMention names last (c :: t) || mentionsAfter names (some c) t

/-- Whether a text mentions one of the names. -/
def mentions (names : List Text) (t : Text) : Bool := mentionsAfter names none t

end Text

/-- What a run looks at. -/
structure Scope where
  specDirectory : Text
  implementationDirectory : Text
  relatedDirectory : Option Text
  /-- The name of the one concept to look at, if not all. -/
  concept : Option Text
  /-- Why no search pattern can be built for a name, where that is so. -/
  patternFault : Text → Option Text := fun _ => none

/-- Why a run ends without reports. -/
inductive RunError where
  | specifications (cause : FileTree.MissingDirectory)
  | implementations (cause : FileTree.MissingDirectory)
deriving DecidableEq

namespace RunError

/-- The wording of an error with its cause. -/
def message : RunError → Text
  | specifications cause =>
    becauseOf ("Failed to scan specifications in " ++ cause.dir) cause.message
  | implementations cause =>
    becauseOf ("Failed to scan implementations in " ++ cause.dir) cause.message

end RunError

/-- What a run gives. -/
structure Run where
  reports : List Report
  skipped : List Skipped

namespace Run

/-- Whether some report counts an error. -/
def hasErrors (r : Run) : Bool := r.reports.any Report.hasErrors

/-- Whether some report counts a warning. -/
def hasWarnings (r : Run) : Bool := r.reports.any Report.hasWarnings

/-- The exit code of a run: 1 for errors and, if it is strict, for warnings. -/
def exitCode (r : Run) (strict : Bool) : Nat :=
  if r.hasErrors || (strict && r.hasWarnings) then 1 else 0

/-! ### What a run looks at -/

/-- The specifications in scope. -/
def specsInScope (concept : Option Text) (specs : List Specification) : List Specification :=
  match concept with
  | none => specs
  | some name => specs.filter fun s => conceptKey s.name = conceptKey name

/-- The modules in scope. -/
def modulesInScope (concept : Option Text) (modules : List SourceModule) : List SourceModule :=
  match concept with
  | none => modules
  | some name => modules.filter fun m => m.realises (conceptKey name)

/-! ### Related files -/

/-- Whether a text refers to a concept, by its name or that of its class. -/
def refersTo (concept t : Text) : Bool :=
  Text.mentions [baseName concept, classNameOf concept] t

/-- A name that cannot be searched for. -/
structure PatternError where
  cause : Text
deriving DecidableEq

/-- The wording of an error with its cause. -/
def PatternError.message (e : PatternError) : Text :=
  becauseOf "Failed to build concept name pattern" e.cause

/-- The related files that refer to a concept. Where there are none at all, nothing is searched
for. -/
def filesReferring (patternFault : Text → Option Text) (related : List RelatedFile)
    (concept : Text) : Except PatternError (List RelatedFile) :=
  if related.isEmpty then .ok []
  else
    match patternFault (baseName concept) with
    | some cause => .error ⟨cause⟩
    | none => .ok (related.filter fun f => refersTo concept f.text)

/-- The text of related files under headings with their paths, if there are any. -/
def relatedText (files : List RelatedFile) : Option Text :=
  if files.isEmpty then none
  else some (files.flatMap fun f => ("// " : Text) ++ f.path ++ "\n" ++ f.text ++ "\n")

/-! ### What the reports are about -/

/-- What a report is about. -/
inductive Subject where
  /-- A specification and the module that it took. -/
  | pair (s : Specification) (d : SourceModule)
  /-- A specification without a module. -/
  | specification (s : Specification)
  /-- A module that no specification took. -/
  | implementation (d : SourceModule)
deriving DecidableEq

/-- The subject of the report on a specification, with the position of the module that it took. -/
def subjectOf (modules : List SourceModule) (s : Specification) (taken : Option Nat) : Subject :=
  match taken.bind fun i => modules[i]? with
  | some d => .pair s d
  | none => .specification s

/-- The subjects of all reports: each specification, then each module that none of them took. -/
def subjects (specs : List Specification) (modules : List SourceModule) : List Subject :=
  let pairing := Pairing.ofLists specs modules
  (specs.zip pairing.assigned).map (fun p => subjectOf modules p.1 p.2) ++
    (pairing.unclaimed.filterMap fun i => modules[i]?).map .implementation

/-- The pairs among the subjects that cannot be compared, as files that were left out. -/
def failures (patternFault : Text → Option Text) (related : List RelatedFile)
    (subjects : List Subject) : List Skipped :=
  subjects.filterMap fun subject =>
    match subject with
    | .pair s d =>
      match filesReferring patternFault related s.name with
      | .ok _ => none
      | .error e => some ⟨d.path, e.message⟩
    | _ => none

/-! ### Reports -/

/-- The score of a module without a specification. -/
def unspecifiedScore : Nat := 60

/-- The report on a specification without an implementation. -/
def unimplemented (s : Specification) : Report :=
  let issue : Issue :=
    { severity := .error, category := .missingAction
      message := "No implementation found for concept '" ++ s.name ++ "'"
      location := { file := s.path }
      suggestion := some ("Create " ++ s.className ++ ".ts exporting class " ++ s.className) }
  (Report.ofIssues s.name s.path Report.missingImplementation [issue]).withScore 0

/-- The report on a module without a specification. -/
def unspecified (d : SourceModule) : Report :=
  let name := d.exposedType.getD d.name
  let issue : Issue :=
    { severity := .warning, category := .stateMismatch
      message := "No specification found for '" ++ name ++ "'"
      location := { file := d.path }
      suggestion :=
        some ("Write a specification starting with 'concept " ++ baseName name ++ "'") }
  (Report.ofIssues (baseName name) [] d.path [issue]).withScore unspecifiedScore

/-- The report on a pair that cannot be compared. -/
def incomparable (s : Specification) (d : SourceModule) (e : PatternError) : Report :=
  let issue : Issue :=
    { severity := .warning, category := .stateMismatch
      message := "Validation of '" ++ s.name ++ "' failed: " ++ e.message
      location := { file := d.path } }
  Report.ofIssues s.name s.path d.path [issue]

/-- The report on a specification and its implementation: what the battery finds, then what a
reviewer remarks. -/
def comparison (files : List RelatedFile) (s : Specification) (d : SourceModule)
    (assessment : Option Assessment) : Report :=
  let remarks := assessment.elim [] fun a => a.toIssues { file := d.path }
  { Report.ofIssues s.name s.path d.path (Battery.compare s d ++ remarks) with
    relatedFiles := files.map RelatedFile.path, assessment := assessment }

variable {m : Type → Type} [Monad m]

/-- The report on a subject. Only pairs that can be compared are shown to the assessor. -/
def reportOn (assessor : Assessor m) (patternFault : Text → Option Text)
    (related : List RelatedFile) : Subject → m Report
  | .pair s d =>
    match filesReferring patternFault related s.name with
    | .error e => pure (incomparable s d e)
    | .ok files => do
      let assessment ← assessor.assess s d (relatedText files)
      pure (comparison files s d assessment)
  | .specification s => pure (unimplemented s)
  | .implementation d => pure (unspecified d)

/-- Checks a project. -/
def ofTree (assessor : Assessor m) (tree : FileTree) (scope : Scope) :
    m (Except RunError Run) :=
  match tree.specifications scope.specDirectory with
  | .error e => pure (.error (.specifications e))
  | .ok specs =>
    match tree.modules scope.implementationDirectory with
    | .error e => pure (.error (.implementations e))
    | .ok modules => do
      let related := tree.relatedFiles scope.relatedDirectory
      let subjects := subjects (specsInScope scope.concept specs.items)
        (modulesInScope scope.concept modules.items)
      let reports ← subjects.mapM (reportOn assessor scope.patternFault related.items)
      pure (.ok
        { reports := reports
          skipped := specs.skipped ++ modules.skipped ++ related.skipped ++
            failures scope.patternFault related.items subjects })

end Run

end Concordance
