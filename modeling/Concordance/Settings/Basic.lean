import Concordance.Assessment.Service
import Concordance.Files.Tree
import Concordance.Text.Blank

set_option autoImplicit false

/-!
# Settings

Where the specifications and implementations are, whether and how concepts are assessed, and how
strict a run is. Settings come from a file, with options of the command line on top of them.
-/

namespace Concordance

/-- The directories of a project, seen from its root. -/
structure Directories where
  specs : Text := "specs"
  implementations : Text := "concepts"
  /-- The synchronizations that refer to concepts. -/
  related : Option Text := some "syncs"
deriving DecidableEq

/-- How concepts are assessed. -/
structure AssessmentSettings where
  enabled : Bool := false
  model : Text := "gpt-4o-mini"
  endpoint : Text := "https://api.openai.com/v1"
  apiKey : Option Text := none
  timeout : Nat := 60
deriving DecidableEq

/-- The settings of a run. -/
structure Settings where
  root : Text := "."
  directories : Directories := {}
  assessment : AssessmentSettings := {}
  strict : Bool := false
deriving DecidableEq

/-- What the command line says about settings. -/
structure Overrides where
  root : Option Text := none
  specs : Option Text := none
  implementations : Option Text := none
  related : Option Text := none
  assess : Bool := false
  apiKey : Option Text := none
  model : Option Text := none
  strict : Bool := false
deriving DecidableEq

/-- What can be wrong with settings. -/
inductive SettingsError where
  | unreadable (path : Text) (cause : FileError)
  | noFrontmatter
  | malformed
  | emptySpecs
  | emptyImplementations
  | zeroTimeout
  | badEndpoint (endpoint : Text)
  | emptyModel
deriving DecidableEq

namespace SettingsError

/-- The wording of an error, without its cause. -/
def headline : SettingsError → Text
  | unreadable path _ => "Failed to read config from " ++ path
  | noFrontmatter => "Failed to extract frontmatter from config"
  | malformed => "Failed to parse config frontmatter"
  | emptySpecs => "paths.specs must not be empty"
  | emptyImplementations => "paths.implementations must not be empty"
  | zeroTimeout => "assessment.timeout_secs must be greater than 0"
  | badEndpoint endpoint =>
    "assessment.endpoint must start with http:// or https://, got '" ++ endpoint ++ "'"
  | emptyModel => "assessment.model must not be empty"

/-- The wording of an error with its cause. -/
def message (e : SettingsError) : Text :=
  match e with
  | unreadable _ cause => e.headline ++ ": " ++ cause.message
  | _ => e.headline

end SettingsError

namespace Settings

/-- The first thing that is wrong with settings. -/
def check (s : Settings) : Except SettingsError Unit :=
  if s.directories.specs.isEmpty then .error .emptySpecs
  else if s.directories.implementations.isEmpty then .error .emptyImplementations
  else if s.assessment.timeout = 0 then .error .zeroTimeout
  else if !isWebAddress s.assessment.endpoint then .error (.badEndpoint s.assessment.endpoint)
  else if Text.isBlankText s.assessment.model then .error .emptyModel
  else .ok ()

/-- The settings with what the command line says about them. The key is not a part of it: see
`apiKey?`. -/
def apply (s : Settings) (o : Overrides) : Settings :=
  { s with
    root := o.root.getD s.root
    directories :=
      { specs := o.specs.getD s.directories.specs
        implementations := o.implementations.getD s.directories.implementations
        related := o.related.or s.directories.related }
    assessment :=
      { s.assessment with
        enabled := s.assessment.enabled || o.assess
        model := o.model.getD s.assessment.model }
    strict := s.strict || o.strict }

/-- The directory of the specifications. -/
def specDirectory (s : Settings) : Text := Path.join s.root s.directories.specs

/-- The directory of the implementations. -/
def implementationDirectory (s : Settings) : Text :=
  Path.join s.root s.directories.implementations

/-- The directory of the synchronizations. -/
def relatedDirectory? (s : Settings) : Option Text :=
  s.directories.related.map (Path.join s.root)

/-- The key for the completion service: from the command line, else from the environment, else
from the settings. A blank one is none. -/
def apiKey? (s : Settings) (given environment : Option Text) : Option Text :=
  (given.or (environment.or s.assessment.apiKey)).filter fun key => !Text.isBlankText key

/-- The name of the environment variable that holds the key. -/
def apiKeyVariable : Text := "CONCEPT_LINT_API_KEY"

/-- The directory of the settings file in a project. -/
def directoryName : Text := ".concept-lint"

/-- The settings file in a project. -/
def fileName : Text := ".concept-lint/config.md"

end Settings

end Concordance
