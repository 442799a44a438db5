import DirWatch.Cli.Switch
import DirWatch.Config.Json
import DirWatch.Text.Decimal

/-!
# Arguments

Reads the words of a command line into an `Invocation`. Words are read from left to right, and the
first one that is wrong, or asks for help or for the version, ends the reading. What is missing is
noticed at the end only.

A value that is a word of its own is not looked at before something else is given on the same side
of the command, or before the end. So the words behind the command are read before the last value
in front of it is looked at.

An option given behind the command takes precedence over the same option before it. On either side
of the command an option may be given once, except for patterns and filters.
-/

namespace DirWatch.Cli

/-- Why there is no command to run. -/
inductive Halt where
  /-- The words are no command line. -/
  | usage
  /-- Help is asked for, on a command or in general. -/
  | help (about : Option CommandName)
  /-- The version is asked for, of a command or in general. -/
  | version (of : Option CommandName)
  deriving DecidableEq

/-- What has been given on one side of the command. -/
structure Given where
  config : Option String := none
  format : Option OutputFormat := none
  verbose : Bool := false
  noColor : Bool := false
  patterns : List String := []
  noSubtree : Bool := false
  filters : List String := []
  maxEvents : Option UInt64 := none
  operands : List String := []
  deriving DecidableEq

def format? (label : String) : Option OutputFormat :=
  [OutputFormat.text, .json].find? fun f => f.label == label

namespace Given

/-- Takes the value of an option, unless the option has one already or does not take this one. -/
def set? (g : Given) (s : Switch) (value : String) : Option Given :=
  match s with
  | .config => if g.config.isSome then none else some { g with config := some value }
  | .format =>
    if g.format.isSome then none
    else (format? value).map fun f => { g with format := some f }
  | .pattern => some { g with patterns := g.patterns ++ [value] }
  | .filter => some { g with filters := g.filters ++ [value] }
  | .maxEvents =>
    if g.maxEvents.isSome then none
    else (Text.nat64? value.toList).map fun n => { g with maxEvents := some n }
  | .verbose | .noColor | .help | .version | .noSubtree => none

/-- Takes an option without a value, unless it has been given already. -/
def turnOn? (g : Given) (s : Switch) : Option Given :=
  match s with
  | .verbose => if g.verbose then none else some { g with verbose := true }
  | .noColor => if g.noColor then none else some { g with noColor := true }
  | .noSubtree => if g.noSubtree then none else some { g with noSubtree := true }
  | .config | .format | .pattern | .filter | .maxEvents | .help | .version => none

end Given

/-- An option whose value is a word of its own. -/
inductive OpenOption where
  /-- The value must come next. -/
  | awaiting (s : Switch)
  /-- The value has come, and has not been looked at. -/
  | holding (s : Switch) (value : String)
  deriving DecidableEq

/-- One side of the command, as far as it has been read. -/
structure Side where
  given : Given := {}
  /-- The last option, if its value has not been looked at. -/
  last : Option OpenOption := none
  deriving DecidableEq

namespace Side

/-- What has been given, with the last value looked at. -/
def close? (side : Side) : Option Given :=
  match side.last with
  | none => some side.given
  | some (.awaiting _) => none
  | some (.holding s value) => side.given.set? s value

/-- Something else is given: the last value is looked at before it is taken. -/
def next (side : Side) (take : Given → Option Given) : Except Halt Side :=
  match side.close?.bind take with
  | none => .error .usage
  | some given => .ok { given }

/-- An option comes whose value is the next word. -/
def await (side : Side) (s : Switch) : Except Halt Side :=
  (side.next some).map fun side => { side with last := some (.awaiting s) }

/-- A word comes that is to be the value of the last option. -/
def hold (side : Side) (s : Switch) (word : String) : Except Halt Side :=
  if s.takes word then .ok { side with last := some (.holding s word) } else .error .usage

/-- An option comes that has no value. -/
def turnOn (side : Side) (command : Option CommandName) (s : Switch) : Except Halt Side := do
  let side ← side.next some
  match s with
  | .help => .error (.help command)
  | .version => .error (.version command)
  | s => side.next (·.turnOn? s)

end Side

/-- How far the words have been read. -/
structure Reading where
  /-- The command, once it has been named. -/
  command : Option CommandName := none
  /-- What was given before the command. -/
  general : Side := {}
  /-- What has been given since. -/
  current : Side := {}
  /-- No more options come. -/
  operandsOnly : Bool := false

namespace Reading

/-- What is given next on the current side. -/
def give (r : Reading) (f : Side → Except Halt Side) : Except Halt Reading :=
  (f r.current).map fun current => { r with current }

/-- Takes an operand: any number of them behind `watch`, one behind `decode`, none before that. -/
def operand (r : Reading) (word : String) : Except Halt Reading :=
  r.give fun side => side.next fun g =>
    let taken : Given := { g with operands := g.operands ++ [word] }
    match r.command with
    | none => none
    | some .watch => some taken
    | some .decode => if g.operands.isEmpty then some taken else none

/-- Reads an option in its long spelling, with a value behind `=` or without. -/
def long (r : Reading) (text : List Char) : Except Halt Reading :=
  let name := String.ofList (text.takeWhile (· ≠ '='))
  let joined := text.dropWhile (· ≠ '=')
  match Switch.named? r.command name with
  | none => .error .usage
  | some s =>
    match s.arity, joined with
    | .alone, [] => r.give (·.turnOn r.command s)
    | .alone, _ :: _ => .error .usage
    | _, [] => r.give (·.await s)
    | _, _ :: value => r.give (·.next (·.set? s (String.ofList value)))

/-- Reads letters: options without a value, and at the end one that may have its value joined to it,
with `=` or without. -/
def letters (r : Reading) : List Char → Except Halt Reading
  | [] => .ok r
  | c :: rest =>
    match Switch.lettered? r.command c with
    | none => .error .usage
    | some s =>
      match s.arity, rest with
      | .alone, rest =>
        match r.give (·.turnOn r.command s) with
        | .error halt => .error halt
        | .ok r => r.letters rest
      | _, [] => r.give (·.await s)
      | _, '=' :: value => r.give (·.next (·.set? s (String.ofList value)))
      | _, value => r.give (·.next (·.set? s (String.ofList value)))

/-- Goes on behind the command that a word names, if one is still to come. -/
def enter? (r : Reading) (word : String) : Option Reading :=
  match r.command, CommandName.ofLabel? word with
  | none, some c => some { r with command := some c, general := r.current, current := {} }
  | _, _ => none

def free (r : Reading) (word : String) : Except Halt Reading :=
  match r.enter? word with
  | some r => .ok r
  | none =>
    match word.toList with
    | ['-', '-'] => .ok { r with operandsOnly := true }
    | '-' :: '-' :: text => r.long text
    | '-' :: c :: text => r.letters (c :: text)
    | _ => r.operand word

def word (r : Reading) (word : String) : Except Halt Reading :=
  if r.operandsOnly then r.operand word
  else
    match r.current.last with
    | some (.awaiting s) => r.give (·.hold s word)
    | _ => r.free word

/-- Tells whether the word `help` asks for help here. -/
def takesHelp (r : Reading) : Bool :=
  r.command.isNone && !r.operandsOnly &&
    match r.current.last with
    | some (.awaiting _) => false
    | _ => true

end Reading

/-- What the word `help` asks for, with the words behind it. -/
def helpOn : List String → Halt
  | [] => .help none
  | [name] =>
    match CommandName.ofLabel? name with
    | some c => .help (some c)
    | none => if name = "help" then .help none else .usage
  | _ => .usage

def Reading.words (r : Reading) : List String → Except Halt Reading
  | [] => .ok r
  | word :: rest =>
    if r.takesHelp && word == "help" then .error (helpOn rest)
    else
      match r.word word with
      | .error halt => .error halt
      | .ok r => r.words rest

/-! ## Invocations -/

/-- What `watch` is told. -/
structure WatchChoices where
  paths : List String
  patterns : List String
  noSubtree : Bool
  filters : List String
  maxEvents : Option UInt64
  deriving DecidableEq

/-- A command with what it needs. -/
inductive Command where
  | watch (choices : WatchChoices)
  | decode (file : String)
  deriving DecidableEq

/-- What a command line asks for. -/
structure Invocation where
  config : Option String
  format : Option OutputFormat
  command : Command
  deriving DecidableEq

/-- The command with what is given behind it, if nothing is missing. -/
def Given.command? (g : Given) (name : CommandName) : Option Command :=
  match name, g.operands with
  | .watch, path :: paths =>
    some (.watch ⟨path :: paths, g.patterns, g.noSubtree, g.filters, g.maxEvents⟩)
  | .decode, [file] => some (.decode file)
  | _, _ => none

/-- What the words ask for that have been read, if nothing is missing. `standing` is the
configuration file to use if they name none. -/
def Reading.invocation? (standing : Option String) (r : Reading) : Option Invocation := do
  let given ← r.current.close?
  let command ← given.command? (← r.command)
  let general ← r.general.close?
  pure {
    config := (given.config.or general.config).or standing
    format := given.format.or general.format
    command }

/-- Reads a command line. `standing` is the configuration file to use if the words name none. -/
def Invocation.read (standing : Option String) (words : List String) : Except Halt Invocation :=
  match ({} : Reading).words words with
  | .error halt => .error halt
  | .ok r =>
    match r.invocation? standing with
    | none => .error .usage
    | some inv => .ok inv

end DirWatch.Cli
