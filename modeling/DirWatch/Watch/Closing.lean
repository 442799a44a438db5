import DirWatch.Watch.Reading

/-!
# Starting and closing a watch

Starting opens the directory, makes the signal, asks for the first read, links the watch to its
queue and registers the worker, in this order; whatever fails, closing takes back what there is.
Closing marks the watch first and then, when the worker has ended, releases all that it holds. A
read that is under way is waited for and counted.
-/

namespace DirWatch.Watch

/-! ## Starting -/

/-- Opens the directory and makes the signal. -/
def openDirectory (w : Watch) (host : Host) : Except WatchError Unit × Watch × Host :=
  match Directory.open host w.settings.path w.settings.maxPendingChanges with
  | (.error e, host) => (.error e, w, host)
  | (.ok d, host) => (.ok (), { w with directory := some d, signal := some .down }, host)

/-- Starts a watch. If it cannot be started, it is left as far as it has come. -/
def start (w : Watch) (host : Host) : Except WatchError Unit × Watch × Host :=
  match w.openDirectory host with
  | (.error e, w, host) => (.error e, w, host)
  | (.ok (), w, host) =>
    match w.initiateRead host with
    | (.error e, w, host) => (.error (.io e), w, host)
    | (.ok (), w, host) =>
      let linked := { w with linked := true }
      match host.startWorker with
      | (.error e, host) => (.error (.io e), linked, host)
      | (.ok (), host) => (.ok (), { linked with registered := true }, host)

/-! ## Closing -/

def markClosed (w : Watch) : Watch := { w with closed := true }

/-- What the last part of closing returns. -/
structure Closing where
  watch : Watch
  /-- Whether the signal was up when the read under way was waited for; nothing if there was none.
  -/
  signaled : Option Bool
  /-- The signal as the watch gave it up. -/
  signal : Option Latch

/-- Closes the directory of a watch whose worker has ended. -/
def closeDirectory (w : Watch) : Watch :=
  let silent := { w with registered := false, linked := false }
  match w.directory with
  | none => silent
  | some d =>
    let step := d.close
    { silent with directory := some step.directory }.raise step.raised

/-- Tells whether the completion that can be taken holds a buffer. -/
def hasBufferBack (w : Watch) : Bool :=
  match w.directory.bind fun d => d.take.1 with
  | some (.done _ _) => true
  | _ => false

/-- Gives up everything that a watch holds. -/
def release (w : Watch) : Watch :=
  { w with directory := none, signal := none, buffer := none, readOutstanding := false }

/-- The last part of closing: the directory is closed, the read under way is waited for, and all is
released. -/
def finishClosing (w : Watch) : Closing :=
  let shut := w.closeDirectory
  if shut.readOutstanding then
    let counted := { shut with counters := shut.counters.finish shut.hasBufferBack }
    ⟨counted.release, some shut.isSignaled, shut.consumeSignal.signal⟩
  else ⟨shut.release, none, shut.signal⟩

def close (w : Watch) : Watch :=
  if w.closed then w else w.markClosed.finishClosing.watch

/-- Closes a watch. The answer tells whether it was this call that closed it. -/
def closeOnce (w : Watch) : Bool × Watch := (!w.closed, w.close)

/-! ## Setting up -/

/-- Sets up a watch and starts it. If it cannot be started, it is closed again and returned beside
the error. -/
def setUp (settings : WatchSettings) (host : Host) :
    Except (WatchError × Watch) Watch × Host :=
  let (handle, host) := host.allocate
  match (unstarted handle settings).start host with
  | (.ok (), w, host) => (.ok w, host)
  | (.error e, w, host) => (.error (e, w.close), host)

/-! ## Letting go -/

/-- Tells whether a watch holds anything that closing would release. -/
def holdsResources (w : Watch) : Bool := w.directory.isSome || w.registered

/-- What becomes of a watch that nobody holds on to any more: it is closed, unless it is closed or
holds nothing. What a closed watch has acquired since is released, too. -/
def abandon (w : Watch) : Closing :=
  if w.closed || !w.holdsResources then
    let shut := w.closeDirectory
    ⟨shut.release, none, shut.signal⟩
  else w.markClosed.finishClosing

end DirWatch.Watch
