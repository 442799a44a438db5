import DirWatch.Cli.Following
import DirWatch.Cli.Lines
import DirWatch.Cli.Usage
import DirWatch.Config.Load
import DirWatch.Session.Settling

/-!
# Running a command

From the words of a command line to what the program writes and how it ends. A command line that
cannot be read comes first, then the configuration, then what the command meets.
-/

namespace DirWatch.Cli

/-- What stops a command that has begun. -/
inductive Failure where
  | config (error : ConfigError)
  | watch (error : WatchError)
  | io (error : IoError)
  deriving DecidableEq

def Failure.message : Failure → String
  | config e => e.message
  | watch e => e.message
  | io e => e.message

/-- How a command ends. -/
inductive Ending where
  | success
  | failure (cause : Failure)
  /-- The words are no command line. -/
  | usage
  /-- A watch was to be given more patterns than it takes. -/
  | aborted

/-- The number that an ending is told by. -/
def Ending.code : Ending → UInt8
  | success => 0
  | failure _ => 1
  | usage => 2
  | aborted => 101

/-- The failure that a command has ended with. -/
def Ending.message? : Ending → Option String
  | failure cause => some cause.message
  | _ => none

/-- What a command leaves behind. -/
structure Outcome where
  ending : Ending
  output : List Char
  /-- The lines that tell which watches have begun. -/
  notes : List String

/-- A command that has ended before it wrote anything. -/
def Outcome.silent (ending : Ending) : Outcome := ⟨ending, [], []⟩

/-- The outcome of a command line that names no command to run. -/
def Halt.outcome : Halt → Outcome
  | usage => .silent .usage
  | help about => ⟨.success, (helpText about).toList, []⟩
  | version of => ⟨.success, (versionLine of).toList, []⟩

/-! ## Configuration -/

/-- The configuration of a command: its file, or else the defaults, with what the command line says
put over it. -/
def Invocation.configure (inv : Invocation) (tree : FileTree) : Except ConfigError Config := do
  let base ← match inv.config with
    | some path => Config.load tree path
    | none => .ok {}
  let base := { base with cli := { base.cli with format := inv.format.getD base.cli.format } }
  match inv.command with
  | .decode _ => base.validated
  | .watch choices =>
    let filter ← match choices.filters with
      | [] => .ok base.monitor.filter
      | names =>
        match Filter.ofNames names with
        | .ok filter => .ok filter
        | .error name => .error (.invalidOption (.unknownClass name))
    Config.validated {
      monitor := { base.monitor with
        includeSubtree := base.monitor.includeSubtree && !choices.noSubtree
        filter }
      cli := { base.cli with maxEvents := choices.maxEvents.or base.cli.maxEvents } }

/-! ## Watching -/

/-- The watches of a command while they are set up. -/
structure Opening where
  session : Session
  host : Host
  /-- A line for each watch that has begun. -/
  notes : List String
  /-- Why the next watch cannot be set up. -/
  failure : Option RegisterError

/-- Sets up the watch of a path, unless one before it has failed. -/
def Opening.next (config : MonitorConfig) (patterns : List String) (o : Opening) (path : String) :
    Opening :=
  if o.failure.isSome then o
  else
    match o.session.register o.host path config.includeSubtree config.filter patterns with
    | (.ok h, session, host) => ⟨session, host, o.notes ++ [watchingLine h path], none⟩
    | (.error e, session, host) => ⟨session, host, o.notes, some e⟩

/-- Sets up the watches of a command, in the order of their paths. -/
def openWatches (config : MonitorConfig) (host : Host) (choices : WatchChoices) : Opening :=
  choices.paths.foldl (Opening.next config choices.patterns) ⟨.new config, host, [], none⟩

/-- How a command ends that cannot set up a watch. -/
def RegisterError.ending : RegisterError → Ending
  | .refused e => .failure (.watch e)
  | .tooManyPatterns _ => .aborted

/-- Watches directories, as long as the backend has something to deliver. -/
def runWatch (config : Config) (host : Host) (choices : WatchChoices) : Outcome :=
  let opened := openWatches config.monitor host choices
  match opened.failure with
  | some e => ⟨RegisterError.ending e, [], opened.notes⟩
  | none =>
    let (session, _) := opened.session.settle opened.host
    let followed := (Following.start session).turn config.cli.maxEvents
    ⟨.success, followed.written.flatMap (writeEvent config.cli.format), opened.notes⟩

/-! ## Decoding -/

/-- Writes the changes that a file of records holds. -/
def runDecode (config : Config) (tree : FileTree) (file : String) : Outcome :=
  match tree.read (RawPath.ofString file) with
  | .error e => .silent (.failure (.io e))
  | .ok content =>
    let buffer : Buffer := content.toArray
    ⟨.success, writeChanges config.cli.format (Record.decode buffer buffer.size), []⟩

/-! ## Commands -/

def Invocation.run (inv : Invocation) (host : Host) : Outcome :=
  match inv.configure host.tree with
  | .error e => .silent (.failure (.config e))
  | .ok config =>
    match inv.command with
    | .watch choices => runWatch config host choices
    | .decode file => runDecode config host.tree file

/-- Runs a command line. `standing` is the configuration file to use if the words name none. -/
def run (host : Host) (standing : Option String) (words : List String) : Outcome :=
  match Invocation.read standing words with
  | .error halt => halt.outcome
  | .ok inv => inv.run host

end DirWatch.Cli
