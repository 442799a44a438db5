import DirWatch.Watch.Closing

/-!
# Watches without a session

A watch may be used on its own, with a queue that its reports go to. The sending end of the queue is
handed over once: whoever asks for it again gets nothing. The owner holds on to the watch, and so
does every report that is queued. When the last of them lets go, the watch is closed.
-/

namespace DirWatch

/-- A watch of its own and the queue of its reports. -/
structure LoneWatch where
  watch : Watch
  /-- The owner holds on to the watch. -/
  owned : Bool
  queue : List Payload
  /-- Somebody will take reports out of the queue. -/
  connected : Bool
  /-- The sending end of the queue has not been handed over yet. -/
  spare : Bool

namespace LoneWatch

def new (w : Watch) : LoneWatch := ⟨w, true, [], true, true⟩

/-- Links the watch to the sending end, if it is to be had; if not, the watch loses its link. -/
def link (l : LoneWatch) : LoneWatch :=
  { l with watch := { l.watch with linked := l.spare }, spare := false }

/-- Starts the watch with the sending end, which is used up also if the watch cannot be started.
Without a sending end there is nothing to start with. -/
def start? (l : LoneWatch) (host : Host) : Option (Except WatchError Unit × LoneWatch × Host) :=
  if l.spare then
    let (result, w, host) := l.watch.start host
    some (result, { l with watch := w, spare := false }, host)
  else none

/-- How many hold on to the watch. -/
def holders (l : LoneWatch) : Nat := (if l.owned then 1 else 0) + l.queue.length

/-- Abandons a watch that nobody holds on to. -/
def tidy (l : LoneWatch) : LoneWatch :=
  if l.holders = 0 then { l with watch := l.watch.abandon.watch } else l

/-- Puts the outcome of an activity in place: the watch afterwards and its reports. -/
def absorb (l : LoneWatch) (reports : List Payload) (w : Watch) : LoneWatch :=
  { l with watch := w, queue := if l.connected then l.queue ++ reports else l.queue }

/-- Takes everything out of the queue. -/
def drain (l : LoneWatch) : List Event × LoneWatch :=
  (l.queue.map fun p => ⟨l.watch.handle, p⟩, { l with queue := [] }.tidy)

/-- Nobody will take reports out of the queue any more. The answer tells whether somebody would
have. -/
def hangUp (l : LoneWatch) : Bool × LoneWatch :=
  (l.connected, { l with queue := [], connected := false }.tidy)

/-- The owner lets go of the watch. The answer is the signal of the watch afterwards. -/
def letGo (l : LoneWatch) : Option Latch × LoneWatch :=
  let left := { l with owned := false }
  (if left.holders = 0 then l.watch.abandon.signal else l.watch.signal, left.tidy)

/-- Linking twice leaves the watch without a link. -/
theorem linked_link_link (l : LoneWatch) : l.link.link.watch.linked = false := rfl

/-- A watch that has been linked by hand is not started any more. -/
theorem start?_link (l : LoneWatch) (host : Host) : l.link.start? host = none := rfl

theorem holders_drain (l : LoneWatch) : l.drain.2.holders = if l.owned then 1 else 0 := by
  simp only [drain, tidy]
  split <;> simp [holders]

end LoneWatch

end DirWatch
