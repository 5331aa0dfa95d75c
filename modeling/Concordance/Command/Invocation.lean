import Concordance.Command.Analysis
import Concordance.Command.Arguments
import Concordance.Command.Setup
import Concordance.Command.Validate

set_option autoImplicit false

/-!
# The command line

The command line names a command and what it is asked for. Its outcome is an exit code, and what
was printed.
-/

namespace Concordance

/-- A command and what it is asked for. -/
inductive Invocation where
  | validate (v : Validation)
  | init (s : Setup)
  | analyze (a : Analysis)
deriving DecidableEq

namespace Invocation

open Text

/-- Any text will do. -/
def anyText (_ : Text) : Bool := true

/-- A path must not be empty. -/
def isPath (t : Text) : Bool := !t.isEmpty

/-- A flag for help. -/
def helpFlag : Flag := { name := "help", letter := 'h', kind := .help }

/-- A flag for more messages on what goes on. -/
def verboseFlag : Flag := { name := "verbose", letter := 'v', kind := .switch }

/-- The flags before the command. -/
def commonFlags : List Flag :=
  [verboseFlag, helpFlag, { name := "version", letter := 'V', kind := .version }]

/-- A flag for a path. -/
def pathFlag (name : Text) : Flag := { name := name, kind := .option isPath }

/-- A flag for a text. -/
def textFlag (name : Text) : Flag := { name := name, kind := .option anyText }

/-- The flags of a validation. -/
def validateFlags : List Flag :=
  [pathFlag "config", pathFlag "project", pathFlag "specs", pathFlag "impl", pathFlag "related",
    { pathFlag "output" with letter := 'o' },
    { name := "format", letter := 'f', kind := .option fun t => (OutputFormat.parse? t).isSome },
    { name := "ai", kind := .switch }, textFlag "api-key", textFlag "model",
    { name := "strict", kind := .switch }, textFlag "concept", verboseFlag, helpFlag]

/-- The flags of a setup. -/
def initFlags : List Flag :=
  [pathFlag "project", { name := "force", kind := .switch }, verboseFlag, helpFlag]

/-- The flags of an analysis. -/
def analyzeFlags : List Flag :=
  [pathFlag "config", pathFlag "project", textFlag "api-key", textFlag "model", verboseFlag,
    helpFlag]

/-- The validation that arguments ask for. -/
def validation (a : Arguments) : Validation :=
  let defaults : Validation := {}
  { settingsFile := a.value? "config"
    overrides :=
      { root := a.value? "project", specs := a.value? "specs", implementations := a.value? "impl"
        related := a.value? "related", assess := a.has "ai", apiKey := a.value? "api-key"
        model := a.value? "model", strict := a.has "strict" }
    output := (a.value? "output").getD defaults.output
    format := ((a.value? "format").bind OutputFormat.parse?).getD defaults.format
    concept := a.value? "concept" }

/-- The setup that arguments ask for. -/
def setup (a : Arguments) : Setup :=
  let defaults : Setup := {}
  { project := (a.value? "project").getD defaults.project, force := a.has "force" }

/-- The analysis that arguments ask for. It needs a concept and an aspect. -/
def analysis? (a : Arguments) : Option Analysis :=
  match a.words with
  | [concept, aspect] =>
    (Aspect.parse? aspect).map fun aspect =>
      { concept := concept, aspect := aspect, settingsFile := a.value? "config"
        overrides :=
          { root := a.value? "project", assess := true, apiKey := a.value? "api-key"
            model := a.value? "model" } }
  | _ => none

/-- The names of the commands. -/
def commandNames : List Text := ["validate", "init", "analyze", "help"]

/-- What the command for help comes to. At most one command may follow it. -/
def helpOn (rest : List Text) : Halt :=
  match rest with
  | [] => .help
  | [name] => if commandNames.any fun n => n = name then .help else .usage
  | _ => .usage

/-- The command that a name and its arguments ask for. -/
def ofCommand (name : Text) (rest : List Text) : Except Halt Invocation :=
  if name = "validate" then
    (Arguments.read validateFlags [] {} none false rest).map fun a => .validate (validation a)
  else if name = "init" then
    (Arguments.read initFlags [] {} none false rest).map fun a => .init (setup a)
  else if name = "analyze" then do
    let a ← Arguments.read analyzeFlags [anyText, fun t => (Aspect.parse? t).isSome] {} none false
      rest
    match analysis? a with
    | some a => .ok (.analyze a)
    | none => .error .usage
  else if name = "help" then .error (helpOn rest)
  else .error .usage

/-- The command that a command line asks for. -/
def parse (args : List Text) : Except Halt Invocation := do
  let (name, rest) ← Arguments.readUntilWord commonFlags {} args
  ofCommand name rest

/-- Runs a command. -/
def execute {m : Type → Type} [Monad m] (i : Invocation) (around : Surroundings m)
    (tree : FileTree) : m Outcome :=
  match i with
  | validate v => v.execute around tree
  | init s => pure (s.execute around.color tree)
  | analyze a => a.execute around tree

end Invocation

/-- What a process leaves when it ends. -/
structure Completion where
  tree : FileTree
  stdout : Text
  stderr : Text
  code : Nat

namespace Completion

open Text

/-- The name and the version of the program. -/
def versionLine : Text := "concept-lint 0.3.2\n"

/-- How the program is called. -/
def usageText : Text :=
  "Check concept implementations against their specifications\n\n" ++
    "Usage: concept-lint [OPTIONS] <COMMAND>\n\n" ++ "Commands:\n" ++
    "  validate  Validate every concept and report alignment issues\n" ++
    "  init      Write a default configuration file\n" ++
    "  analyze   Assess one aspect of a concept with the assessment service\n" ++
    "  help      Print this message or the help of the given subcommand(s)\n\n" ++ "Options:\n" ++
    "  -v, --verbose  Show debug logging\n" ++
    "  -h, --help     Print help\n" ++ "  -V, --version  Print version\n"

/-- The end of a command: an error is printed and gives the code 1. -/
def ofOutcome (color : Bool) (o : Outcome) : Completion :=
  match o.result with
  | .ok code => { tree := o.tree, stdout := o.stdout, stderr := o.stderr, code := code }
  | .error e =>
    { tree := o.tree, stdout := o.stdout
      stderr :=
        o.stderr ++ Terminal.paint color [.red] "Error:" ++ " " ++ e.message ++ "\n"
      code := 1 }

/-- The end of a process that ran no command. -/
def ofHalt (tree : FileTree) : Halt → Completion
  | .version => { tree := tree, stdout := versionLine, stderr := [], code := 0 }
  | .help => { tree := tree, stdout := usageText, stderr := [], code := 0 }
  | .usage => { tree := tree, stdout := [], stderr := usageText, code := 2 }

/-- Does what a command line asks for. -/
def ofArguments {m : Type → Type} [Monad m] (around : Surroundings m) (tree : FileTree)
    (args : List Text) : m Completion :=
  match Invocation.parse args with
  | .error halt => pure (ofHalt tree halt)
  | .ok i => do
    let outcome ← i.execute around tree
    pure (ofOutcome around.color outcome)

end Completion

end Concordance
