import DirWatch.Signal.Latch

/-!
# Workers that wait for a signal

A worker is registered with a signal and runs its callback each time the signal is up: it looks at
the signal, consumes it and starts the callback, one at a time. Others may raise the signal or
consume it in between. A worker that finds its registration cancelled ends, and leaves the signal as
it is. To unregister is to cancel and to wait until the worker has ended.
-/

namespace DirWatch

/-- Where a worker stands. -/
inductive WorkerPhase where
  | parked
  | running
  | ended
  deriving DecidableEq

/-- A signal with the worker that is registered with it. -/
structure Wait where
  latch : Latch
  cancelled : Bool
  worker : WorkerPhase
  /-- The number of callbacks that have been started. -/
  started : Nat
  deriving DecidableEq

namespace Wait

def unregistered : Wait := ⟨.down, true, .ended, 0⟩

/-- Registers a new worker with the signal, whose last one has ended. -/
def register (w : Wait) : Wait := { w with cancelled := false, worker := .parked }

/-- Tells whether there is a worker that has not ended. -/
def isActive (w : Wait) : Bool := w.worker ≠ .ended

/-! ## Steps -/

def raise (w : Wait) : Wait := { w with latch := w.latch.raise }

/-- Consumes the signal in place of the worker. The answer tells whether it was up. -/
def consume (w : Wait) : Bool × Wait :=
  let (got, latch) := w.latch.consume
  (got, { w with latch })

def cancel (w : Wait) : Wait := { w with cancelled := true }

/-- A parked worker looks: it ends if it is cancelled, or else starts its callback if the signal is
up. -/
def check (w : Wait) : Wait :=
  match w.worker with
  | .parked =>
    if w.cancelled then { w with worker := .ended }
    else
      match w.latch.consume with
      | (true, latch) => { w with latch, worker := .running, started := w.started + 1 }
      | (false, _) => w
  | _ => w

/-- A running callback returns. -/
def endCallback (w : Wait) : Wait :=
  match w.worker with
  | .running => { w with worker := .parked }
  | _ => w

/-- Lets the worker go on until it waits or has ended, with nobody else in between. -/
def settle (w : Wait) : Wait := w.endCallback.check.endCallback.check

def unregister (w : Wait) : Wait := w.cancel.settle

/-- Whoever unregisters returns with the worker ended. -/
theorem unregister_worker (w : Wait) : w.unregister.worker = .ended := by
  obtain ⟨latch, cancelled, worker, started⟩ := w
  cases worker <;> simp [unregister, cancel, settle, endCallback, check]

end Wait

end DirWatch
