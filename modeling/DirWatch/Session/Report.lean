import DirWatch.Json.Value

/-!
# Dispatch reports

What became of the messages of a dispatch pass, and of all passes of a session together. A message
is counted once (`processed_deliver` and its like), and so are errors among deliveries, so that
words of 64 bits hold the same counts as long as fewer than `2 ^ 64` messages have been dealt with.
-/

namespace DirWatch

/-- Messages, counted by what became of them. -/
structure Report where
  /-- Events handed to the handler. -/
  delivered : Nat
  /-- Messages without changes. -/
  suppressed : Nat
  /-- Messages of closed watches or of a session that has ended. -/
  discarded : Nat
  /-- Deliveries that the handler answered with an error. -/
  handlerErrors : Nat
  deriving DecidableEq, Inhabited

namespace Report

def zero : Report := ⟨0, 0, 0, 0⟩

def add (a b : Report) : Report :=
  ⟨a.delivered + b.delivered, a.suppressed + b.suppressed, a.discarded + b.discarded,
    a.handlerErrors + b.handlerErrors⟩

def processed (r : Report) : Nat := r.delivered + r.suppressed + r.discarded

def discard (r : Report) : Report := { r with discarded := r.discarded + 1 }

def suppress (r : Report) : Report := { r with suppressed := r.suppressed + 1 }

def deliver (r : Report) (failed : Bool) : Report :=
  { r with
    delivered := r.delivered + 1
    handlerErrors := if failed then r.handlerErrors + 1 else r.handlerErrors }

@[simp] theorem processed_zero : zero.processed = 0 := rfl

@[simp] theorem processed_add (a b : Report) :
    (a.add b).processed = a.processed + b.processed := by
  simp only [processed, add]
  omega

@[simp] theorem processed_discard (r : Report) : r.discard.processed = r.processed + 1 := by
  simp only [processed, discard]
  omega

@[simp] theorem processed_suppress (r : Report) : r.suppress.processed = r.processed + 1 := by
  simp only [processed, suppress]
  omega

@[simp] theorem processed_deliver (r : Report) (failed : Bool) :
    (r.deliver failed).processed = r.processed + 1 := by
  simp only [processed, deliver]
  omega

end Report

end DirWatch
