import DirWatch.Error.Backend
import DirWatch.Watch.Handle

/-!
# Errors of setting up and ending a watch

These are reported to the caller at once. What happens to a watch that runs is reported by an event
instead.
-/

namespace DirWatch

/-- Why a watch cannot be set up or ended. -/
inductive WatchError where
  | pathNotFound (path : String)
  | notADirectory (path : String)
  /-- The pattern is given with its sign, the reason in words. -/
  | invalidPattern (pattern reason : String)
  | unknownHandle (handle : Handle)
  | sessionClosed
  | backend (error : BackendError)
  | io (error : IoError)
  deriving DecidableEq, Inhabited

namespace WatchError

def message : WatchError → String
  | pathNotFound path => "path does not exist: " ++ path
  | notADirectory path => "path is not a directory: " ++ path
  | invalidPattern pattern reason => "invalid pattern '" ++ pattern ++ "': " ++ reason
  | unknownHandle handle => "no active watch with handle " ++ handle.display
  | sessionClosed => "session has been torn down"
  | backend error => "notify watcher error: " ++ error.message
  | io error => "I/O error: " ++ error.message

/-- Tells the errors that the caller can mend before trying again. -/
def isRecoverable : WatchError → Bool
  | invalidPattern _ _ | unknownHandle _ => true
  | _ => false

/-- The path that an error is about. -/
def path? : WatchError → Option String
  | pathNotFound path | notADirectory path => some path
  | _ => none

end WatchError

end DirWatch
