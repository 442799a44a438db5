import DirWatch.Session.Basic

/-!
# Following a session

How the command `watch` attends to its session. In each turn it takes all that is queued, writes the
events, and ends the watches that report an error. It stops when no watch is left or when the number
of events has reached the limit; both are looked at between turns only.
-/

namespace DirWatch.Cli

/-- The command while it attends to its session. -/
structure Following where
  session : Session
  written : List Event
  /-- Deliveries so far; a word of 64 bits holds the number until there are `2 ^ 64` of them. -/
  delivered : Nat
  stopped : Bool

namespace Following

/-- The command before its first turn. -/
def start (session : Session) : Following := ⟨session, [], 0, false⟩

/-- Tells whether a number of deliveries is enough. -/
def isEnough (limit : Option UInt64) (delivered : Nat) : Bool :=
  limit.any fun n => n.toNat ≤ delivered

/-- Ends the watches that events report an error of. -/
def endFailed (s : Session) (events : List Event) : Session :=
  events.foldl (fun s e => if e.status = .error then (s.unregister e.handle).2 else s) s

/-- One turn. Nothing happens while nothing is queued. -/
def turn (limit : Option UInt64) (f : Following) : Following :=
  if f.stopped then f
  else
    match f.session.dispatchNext fun _ => false with
    | none => f
    | some (pass, session) =>
      let session := endFailed session pass.seen
      let delivered := f.delivered + pass.report.delivered
      { session
        written := f.written ++ pass.seen
        delivered
        stopped := session.active.isEmpty || isEnough limit delivered }

/-- Messages are queued, unless the command has stopped. -/
def hear (f : Following) (messages : List Message) : Following :=
  if f.stopped then f
  else { f with session := { f.session with queue := f.session.queue ++ messages } }

/-- The turns that find these messages queued, one list of them before each turn. -/
def run (limit : Option UInt64) (f : Following) (batches : List (List Message)) : Following :=
  batches.foldl (fun f batch => (f.hear batch).turn limit) f

/-- The session when the command has ended. -/
def finish (f : Following) : Session := f.session.teardown.2

/-! ## Stopping -/

theorem turn_of_stopped {limit : Option UInt64} {f : Following} (h : f.stopped = true) :
    f.turn limit = f := by
  simp [turn, h]

end Following

end DirWatch.Cli
