import DirWatch.Cli.Run
import DirWatch.Notice.Line

/-!
# The program

Looks at the paths that a command line names, runs the command, and writes what it leaves behind.
The notices that `watch` attends to are the lines of the standard input.
-/

namespace DirWatch.Program

/-- Reads what stands at an absolute path. -/
def nodeAt (path : String) : IO Node := do
  try
    let content ← IO.FS.readBinFile path
    pure (.file content.toList)
  catch
    | .noFileOrDirectory .. => pure (.link [])
    | _ => pure .directory

/-- The real path that a path leads to, if it leads anywhere. -/
def realPath? (path : RawPath) : IO (Option RawPath) := do
  try
    let real ← IO.FS.realPath (RawPath.display path)
    pure (some (RawPath.ofString real.toString))
  catch _ => pure none

/-- Puts the directories above a place into a tree. -/
def withParents (tree : FileTree) (place : Place) : FileTree :=
  (List.range place.length).foldl
    (fun (tree : FileTree) n => tree.put (place.take n) .directory) tree

/-- Looks at the parts of a path one after another, from a place that the tree holds. -/
def lookAlong (tree : FileTree) (place : Place) : List (List UInt8) → IO FileTree
  | [] => pure tree
  | part :: rest => do
    let here := FileTree.pathOf (place ++ [part])
    match ← realPath? here with
    | none => pure tree
    | some real =>
      let target := FileTree.partsOf real
      let tree := (withParents tree target).put target (← nodeAt (RawPath.display real))
      let isLink := part != RawPath.dot && part != RawPath.dotDot && target != place ++ [part]
      let tree := if isLink then tree.put (place ++ [part]) (.link real) else tree
      lookAlong tree target rest

/-- Looks at a path. -/
def look (tree : FileTree) (path : String) : IO FileTree :=
  let p := RawPath.ofString path
  lookAlong tree (if RawPath.isAbsolute p then [] else tree.workingDirectory) (FileTree.partsOf p)

/-- The paths that a command looks at. -/
def pathsOf (inv : Cli.Invocation) : List String :=
  inv.config.toList ++
    match inv.command with
    | .watch choices => choices.paths
    | .decode file => [file]

/-- The surroundings of a command. -/
def surroundings (inv : Cli.Invocation) : IO Host := do
  let here := FileTree.partsOf (RawPath.ofString (← IO.currentDir).toString)
  let start : FileTree := (withParents ⟨[], here⟩ here).put here .directory
  let tree ← (pathsOf inv).foldlM look start
  pure { tree }

/-- Writes what a command leaves behind. -/
def conclude (outcome : Cli.Outcome) : IO UInt32 := do
  outcome.notes.forM fun line => IO.eprintln line
  IO.print (String.ofList outcome.output)
  match outcome.ending with
  | .usage => IO.eprint (Cli.helpText none)
  | _ => outcome.ending.message?.forM fun message => IO.eprintln ("Error: " ++ message)
  pure outcome.ending.code.toUInt32

/-- Attends to a session until the command stops or no more notices come. -/
partial def attend (config : Config) (host : Host) (f : Cli.Following) : IO Unit := do
  let (session, host) := f.session.settle host
  let f := { f with session, written := [] }.turn config.cli.maxEvents
  f.written.forM fun e => IO.print (String.ofList (Cli.writeEvent config.cli.format e))
  (← IO.getStdout).flush
  if f.stopped then return
  let line ← (← IO.getStdin).getLine
  if line.isEmpty then return
  match Delivery.ofLine? host.tree (line.trimAsciiEnd.toString) with
  | none => attend config host f
  | some delivery =>
    attend config host { f with session := f.session.deliverToAll host.tree.pathExists delivery }

/-- Watches directories until the command stops. -/
def watch (config : Config) (host : Host) (choices : Cli.WatchChoices) : IO UInt32 := do
  let opened := Cli.openWatches config.monitor host choices
  match opened.failure with
  | some _ => conclude (Cli.runWatch config host choices)
  | none =>
    opened.notes.forM fun line => IO.eprintln line
    attend config opened.host (.start opened.session)
    pure 0

/-- Runs a command line. -/
def run (standing : Option String) (words : List String) : IO UInt32 := do
  match Cli.Invocation.read standing words with
  | .error halt => conclude halt.outcome
  | .ok inv =>
    let host ← surroundings inv
    match inv.command, inv.configure host.tree with
    | .watch choices, .ok config => watch config host choices
    | _, _ => conclude (inv.run host)

end DirWatch.Program

def main (words : List String) : IO UInt32 := do
  DirWatch.Program.run (← IO.getEnv "DIRMON_CONFIG") words
