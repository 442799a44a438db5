/-!
# Signals

A signal is up or down. Raising it latches it, however often it is raised, and one waiter takes it
down again.
-/

namespace DirWatch

/-- A signal that stays up until a waiter consumes it. -/
structure Latch where
  isUp : Bool
  deriving DecidableEq, Inhabited

namespace Latch

/-- A signal that nothing has raised. -/
def down : Latch := ⟨false⟩

def raise (_ : Latch) : Latch := ⟨true⟩

/-- Takes a signal down. The answer tells whether it was up. -/
def consume (l : Latch) : Bool × Latch := (l.isUp, down)

end Latch

end DirWatch
