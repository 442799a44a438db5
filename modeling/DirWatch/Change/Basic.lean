import DirWatch.Change.Action

/-!
# Changes

One change of a watched directory: what happened, and to which path below the root.
-/

namespace DirWatch

/-- An action and the path it happened to, relative to the watched root and with `/` between its
components. -/
structure Change where
  action : Action
  path : String
  deriving DecidableEq, Inhabited

end DirWatch
