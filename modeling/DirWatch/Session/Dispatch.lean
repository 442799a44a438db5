import DirWatch.Session.Report
import DirWatch.Watch.Event

/-!
# Dispatch

What becomes of a queued message: it is discarded if its watch or the session has ended, suppressed
if it has no changes, and else handed to the handler, whose failure stops nothing.
-/

namespace DirWatch

/-- A report in the queue, with the watch that it comes from. -/
abbrev Message := Event

/-- What a dispatch pass has done so far. -/
structure Pass where
  report : Report
  /-- The events handed to the handler, in order. -/
  seen : List Event

namespace Pass

def start : Pass := ⟨.zero, []⟩

/-- Deals with one message. `ended` tells whether its watch or the session has ended; `fails`
answers for the handler, by the number of the delivery in this pass. -/
def step (ended : Message → Bool) (fails : Nat → Bool) (p : Pass) (m : Message) : Pass :=
  if ended m then { p with report := p.report.discard }
  else if m.status = .noChanges then { p with report := p.report.suppress }
  else ⟨p.report.deliver (fails p.seen.length), p.seen ++ [m]⟩

/-- Deals with messages in order. -/
def run (ended : Message → Bool) (fails : Nat → Bool) (messages : List Message) : Pass :=
  messages.foldl (step ended fails) start

end Pass

end DirWatch
