import Concordance.Text.Basic

set_option autoImplicit false

/-!
# Arguments

The arguments of a command are flags, by their long name or a letter, and words. A switch stands
alone, and an option takes a value, in the same argument or in the next one. Short flags may share
an argument. A flag must not be repeated, and after two dashes there are only words. Arguments are
read from left to right, and the first thing wrong ends the reading, as does a request for help or
for the version.
-/

namespace Concordance

/-- What a flag is followed by. -/
inductive FlagKind where
  | switch
  /-- A value that passes a test. -/
  | option (accepts : Text → Bool)
  | help
  | version

/-- A flag of a command. -/
structure Flag where
  name : Text
  letter : Option Char := none
  kind : FlagKind

/-- Why no command can be run. -/
inductive Halt where
  | usage
  | help
  | version
deriving DecidableEq

/-- What the arguments of a command give. -/
structure Arguments where
  /-- The flags with their values, which are empty for switches. -/
  flags : List (Text × Text) := []
  words : List Text := []
deriving DecidableEq

namespace Arguments

open Text

/-- Whether a switch was given. -/
def has (a : Arguments) (name : Text) : Bool := a.flags.any fun f => f.1 = name

/-- The value of an option. -/
def value? (a : Arguments) (name : Text) : Option Text := a.flags.lookup name

/-- Adds a flag that was not there yet. -/
def add (a : Arguments) (name value : Text) : Except Halt Arguments :=
  if a.has name then .error .usage else .ok { a with flags := a.flags ++ [(name, value)] }

/-- Adds an option with its value. -/
def addValue (a : Arguments) (flag : Flag) (value : Text) : Except Halt Arguments :=
  match flag.kind with
  | .option accepts => if accepts value then a.add flag.name value else .error .usage
  | _ => .error .usage

/-- What is known after a flag: the arguments, and the option whose value is to come next. -/
abbrev Progress := Arguments × Option Flag

/-- A long flag without its dashes, and the value after an equals sign. -/
def readLong (flags : List Flag) (a : Arguments) (t : Text) : Except Halt Progress :=
  let (name, value) :=
    match cutAt '=' t with
    | some (name, value) => (name, some value)
    | none => (t, none)
  match flags.find? fun f => f.name = name with
  | none => .error .usage
  | some flag =>
    match flag.kind, value with
    | .option _, some value => (a.addValue flag value).map fun a => (a, none)
    | .option _, none => if a.has flag.name then .error .usage else .ok (a, some flag)
    | .switch, none => (a.add flag.name []).map fun a => (a, none)
    | .help, none => .error .help
    | .version, none => .error .version
    | _, some _ => .error .usage

/-- Short flags without their dash. What follows the letter of an option is its value, after an
equals sign or directly. -/
def readShort (flags : List Flag) (a : Arguments) : Text → Except Halt Progress
  | [] => .ok (a, none)
  | c :: rest =>
    match flags.find? fun f => f.letter = some c with
    | none => .error .usage
    | some flag =>
      match flag.kind with
      | .switch => do
        let a ← a.add flag.name []
        readShort flags a rest
      | .help => .error .help
      | .version => .error .version
      | .option _ =>
        if rest.isEmpty then
          if a.has flag.name then .error .usage else .ok (a, some flag)
        else (a.addValue flag ((after? "=" rest).getD rest)).map fun a => (a, none)

/-- What an argument looks like. -/
inductive Shape where
  | dashes
  | long (t : Text)
  | short (t : Text)
  | word
deriving DecidableEq

/-- The shape of an argument. A single dash is a word. -/
def shapeOf (arg : Text) : Shape :=
  match after? "--" arg, after? "-" arg with
  | some [], _ => .dashes
  | some t, _ => .long t
  | none, some (c :: t) => .short (c :: t)
  | none, _ => .word

/-- Reads the arguments of a command, whose words pass the given tests in order. An option may wait
for its value. -/
def read (flags : List Flag) (tests : List (Text → Bool)) :
    (a : Arguments) → (waiting : Option Flag) → (onlyWords : Bool) → List Text →
      Except Halt Arguments
  | a, none, _, [] => .ok a
  | _, some _, _, [] => .error .usage
  | a, waiting, onlyWords, arg :: rest =>
    match waiting, if onlyWords then Shape.word else shapeOf arg with
    | some flag, .word => do
      let a ← a.addValue flag arg
      read flags tests a none onlyWords rest
    | some _, _ => .error .usage
    | none, .dashes => read flags tests a none true rest
    | none, .long t => do
      let (a, waiting) ← readLong flags a t
      read flags tests a waiting onlyWords rest
    | none, .short t => do
      let (a, waiting) ← readShort flags a t
      read flags tests a waiting onlyWords rest
    | none, .word =>
      match tests[a.words.length]? with
      | some test =>
        if test arg then read flags tests { a with words := a.words ++ [arg] } none onlyWords rest
        else .error .usage
      | none => .error .usage

/-- Reads switches up to the first word, and gives that word and what follows it. -/
def readUntilWord (flags : List Flag) :
    (a : Arguments) → List Text → Except Halt (Text × List Text)
  | _, [] => .error .usage
  | a, arg :: rest =>
    match shapeOf arg with
    | .word => .ok (arg, rest)
    | .dashes => .error .usage
    | .long t => do
      let (a, _) ← readLong flags a t
      readUntilWord flags a rest
    | .short t => do
      let (a, _) ← readShort flags a t
      readUntilWord flags a rest

end Arguments

end Concordance
