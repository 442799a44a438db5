/-!
# Options

What the command line can be told by options: how each of them is spelled, whether a value follows
it, and where it may stand. Some may stand anywhere, the others only behind the command that they
belong to.
-/

namespace DirWatch.Cli

/-- A command that can be named. -/
inductive CommandName where
  /-- Watch directories and write their changes. -/
  | watch
  /-- Write the changes that a file of records holds. -/
  | decode
  deriving DecidableEq

namespace CommandName

def label : CommandName → String
  | watch => "watch"
  | decode => "decode"

def ofLabel? (text : String) : Option CommandName :=
  [watch, decode].find? fun c => c.label == text

theorem ofLabel?_label (c : CommandName) : ofLabel? c.label = some c := by
  cases c <;> decide

end CommandName

/-- An option. -/
inductive Switch where
  | config
  | format
  | verbose
  | noColor
  | help
  | version
  | pattern
  | noSubtree
  | filter
  | maxEvents
  deriving DecidableEq

/-- What follows an option. -/
inductive Arity where
  | alone
  /-- A value that does not look like an option, unless it is joined to its option. -/
  | value
  | anyValue
  deriving DecidableEq

namespace Switch

/-- The spelling behind two hyphens. -/
def longName : Switch → String
  | config => "config"
  | format => "format"
  | verbose => "verbose"
  | noColor => "no-color"
  | help => "help"
  | version => "version"
  | pattern => "pattern"
  | noSubtree => "no-subtree"
  | filter => "filter"
  | maxEvents => "max-events"

/-- The letter behind one hyphen, for the options that have one. -/
def letter? : Switch → Option Char
  | config => some 'c'
  | verbose => some 'v'
  | help => some 'h'
  | version => some 'V'
  | pattern => some 'p'
  | filter => some 'f'
  | format | noColor | noSubtree | maxEvents => none

/-- What follows each option. -/
def arity : Switch → Arity
  | config | format | filter | maxEvents => .value
  | pattern => .anyValue
  | verbose | noColor | help | version | noSubtree => .alone

/-- The options that may stand anywhere. -/
def everywhere : List Switch := [config, format, verbose, noColor, help, version]

/-- The options that may stand behind a command, or before any. -/
def available : Option CommandName → List Switch
  | some .watch => [pattern, noSubtree, filter, maxEvents] ++ everywhere
  | some .decode | none => everywhere

def named? (command : Option CommandName) (name : String) : Option Switch :=
  (available command).find? fun s => s.longName == name

def lettered? (command : Option CommandName) (c : Char) : Option Switch :=
  (available command).find? fun s => s.letter? == some c

/-- Tells the words that stand for options: a hyphen and something behind it. -/
def isSpelledBy (word : String) : Bool :=
  match word.toList with
  | '-' :: _ :: _ => true
  | _ => false

/-- Tells whether a word of its own can be the value of an option. -/
def takes (s : Switch) (word : String) : Bool :=
  match s.arity with
  | .alone => false
  | .value => !isSpelledBy word
  | .anyValue => true

/-- Behind `watch`, every option is found by its long spelling. -/
theorem named?_longName (s : Switch) : named? (some .watch) s.longName = some s := by
  cases s <;> decide

end Switch

end DirWatch.Cli
