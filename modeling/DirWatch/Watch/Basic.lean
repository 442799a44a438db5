import DirWatch.Config.Basic
import DirWatch.Directory.Basic
import DirWatch.Pattern.Basic
import DirWatch.Signal.Latch
import DirWatch.Watch.Counters

/-!
# Watches

A watch observes one directory for a session. Its settings never change. Once it has started it
holds an open directory, a signal, a worker that waits for the signal and a link to its session's
queue; its one buffer is with the directory while a read is under way.
-/

namespace DirWatch

/-- What a watch is set up with. -/
structure WatchSettings where
  path : String
  includeSubtree : Bool
  filter : Filter
  patterns : Patterns
  bufferSize : Nat
  maxPendingChanges : Nat
  closeWaitMs : Nat

/-- A watch. -/
structure Watch where
  handle : Handle
  settings : WatchSettings
  /-- The watch has begun to close. -/
  closed : Bool
  directory : Option Directory
  signal : Option Latch
  /-- The buffer, while no read is under way. -/
  buffer : Option Buffer
  /-- A read has been asked for, and its end has not been seen. -/
  readOutstanding : Bool
  /-- A worker waits for the signal. -/
  registered : Bool
  /-- Reports reach the queue of the session. -/
  linked : Bool
  counters : Counters

namespace Watch

/-- The settings of a watch in a session with this configuration. -/
def settingsFor (config : MonitorConfig) (path : String) (includeSubtree : Bool) (filter : Filter)
    (patterns : Patterns) : WatchSettings :=
  { path, includeSubtree, filter, patterns
    bufferSize := config.bufferSize.toNat
    maxPendingChanges := config.maxPendingChanges.toNat
    closeWaitMs := config.closeWaitMs.toNat }

/-- A watch that has not started and holds nothing. -/
def unstarted (handle : Handle) (settings : WatchSettings) : Watch :=
  { handle, settings
    closed := false
    directory := none
    signal := none
    buffer := none
    readOutstanding := false
    registered := false
    linked := false
    counters := .zero }

/-- The name under which a watch has its signal raised. -/
def signalName (w : Watch) : SignalName := w.handle.number

def raise (w : Watch) (raised : Option SignalName) : Watch :=
  if raised = some w.signalName then { w with signal := w.signal.map Latch.raise } else w

/-- Takes the signal of a watch down, if it has one. -/
def consumeSignal (w : Watch) : Watch :=
  { w with signal := w.signal.map fun (l : Latch) => l.consume.2 }

/-- The reports of a watch that reach the queue. -/
def report (w : Watch) (payload : Payload) : List Payload :=
  if w.linked then [payload] else []

/-- Hands a watch what the backend delivers. -/
def deliver (present : RawPath → Bool) (w : Watch) (delivery : Delivery) : Watch :=
  match w.directory with
  | none => w
  | some d =>
    let step := d.record present delivery
    { w with directory := some step.directory }.raise step.raised

end Watch

end DirWatch
