import DirWatch.Pattern.Filtering
import DirWatch.Watch.Basic
import DirWatch.Watch.Event

/-!
# Reading

A watch keeps one read under way. When the worker finds the signal up, it takes the completion,
reports the changes that the patterns admit, and asks for the next read with the same buffer. A read
that fails is reported and is the last one.
-/

namespace DirWatch.Watch

/-- What a watch without a directory answers. -/
def notOpenError : IoError := .raised .notConnected "watch is not open"

/-- Asks the directory for a read. The buffer is made for the first read; a refusal is counted as a
failed read and takes the buffer away. -/
def initiateRead (w : Watch) (host : Host) : Except IoError Unit × Watch × Host :=
  match w.signal, w.directory with
  | some _, some d =>
    let buffer := w.buffer.getD (Array.replicate w.settings.bufferSize 0)
    let asked := { w with buffer := none, counters := w.counters.issue }
    match d.read host buffer w.settings.includeSubtree w.settings.filter w.signalName with
    | (step, host) =>
      match step.answer with
      | .ok () =>
        (.ok (), { asked with directory := some step.directory, readOutstanding := true }.raise
          step.raised, host)
      | .error e =>
        (.error e, { asked with
          directory := some step.directory
          readOutstanding := false
          counters := asked.counters.finish false }, host)
  | _, _ => (.error notOpenError, w, host)

/-- Counts the end of a read; the buffer, if there still is one, is at hand again. -/
def endRead (w : Watch) (d : Directory) : Completion → Watch
  | .failed _ =>
    { w with
      directory := some d
      readOutstanding := false
      counters := w.counters.finish false }
  | .done buffer _ =>
    { w with
      directory := some d
      readOutstanding := false
      counters := w.counters.finish true
      buffer := some buffer }

/-- Deals with the end of a read: the reports that it makes, the watch afterwards and its host.
Without a completion nothing happens. -/
def onReadComplete (w : Watch) (host : Host) : List Payload × Watch × Host :=
  match w.directory with
  | none => ([], w, host)
  | some d =>
    match d.take with
    | (none, _) => ([], w, host)
    | (some (.failed e), d) =>
      let ended := w.endRead d (.failed e)
      (ended.report (.failure e), ended, host)
    | (some (.done buffer bytes), d) =>
      let ended := w.endRead d (.done buffer bytes)
      let changes := Record.decodeFiltered buffer bytes w.settings.patterns
      let first := ended.report (.changes changes)
      if ended.closed then (first, ended, host)
      else
        match ended.initiateRead host with
        | (.ok (), w, host) => (first, w, host)
        | (.error e, w, host) => (first ++ w.report (.failure e), w, host)

/-- Tells whether the worker would be woken. -/
def isSignaled (w : Watch) : Bool := w.signal.any Latch.isUp

/-- The worker: if the signal is up, it is consumed and the end of the read dealt with. -/
def work (w : Watch) (host : Host) : List Payload × Watch × Host :=
  if w.isSignaled then w.consumeSignal.onReadComplete host
  else ([], w, host)

/-- The worker as long as the signal is up, at most `limit` times. The answer begins with the number
of times. -/
def workUpTo (w : Watch) (host : Host) : Nat → Nat × List Payload × Watch × Host
  | 0 => (0, [], w, host)
  | limit + 1 =>
    if w.isSignaled then
      match w.work host with
      | (reports, w, host) =>
        match w.workUpTo host limit with
        | (calls, later, w, host) => (calls + 1, reports ++ later, w, host)
    else (0, [], w, host)

/-- How often the worker can find something to tell: once for each change that waits, for their
loss, for the error behind them and for a read that has ended. -/
def backlog (w : Watch) : Nat :=
  match w.directory with
  | none => 0
  | some d =>
    d.journal.pending.length + (if d.journal.overflowed then 1 else 0) +
      (if d.journal.failure.isSome then 1 else 0) +
      match d.slot with
      | .finished _ => 1
      | _ => 0

end DirWatch.Watch
