import DirWatch.Error.Io
import DirWatch.Text.Pieces
import DirWatch.Text.Quoted

/-!
# Errors of the notification backend

The backend that observes the file system fails for causes of its own, and may name the paths that
it failed for. Its errors are shown as they are when a watch cannot be opened; in the midst of a
read they become input and output errors (`BackendError.toIo`).
-/

namespace DirWatch

/-- Why the backend failed. -/
inductive BackendCause where
  | generic (text : String)
  | io (error : IoError)
  | pathNotFound
  | watchNotFound
  /-- The backend has settings that it cannot work with; they are shown as this text. -/
  | invalidSettings (shown : String)
  | tooManyWatches
  deriving DecidableEq, Inhabited

/-- A failure of the backend, with the paths it is about. -/
structure BackendError where
  cause : BackendCause
  paths : List String
  deriving DecidableEq, Inhabited

def BackendCause.message : BackendCause → String
  | generic text => text
  | io error => error.message
  | pathNotFound => "No path was found."
  | watchNotFound => "No watch was found."
  | invalidSettings shown => "Invalid configuration: " ++ shown
  | tooManyWatches => "OS file watch limit reached."

namespace BackendError

/-- A list of quoted paths in brackets. -/
def pathList (paths : List String) : String :=
  "[" ++ ", ".intercalate (paths.map Text.quoted) ++ "]"

def message (e : BackendError) : String :=
  match e.paths with
  | [] => e.cause.message
  | paths => e.cause.message ++ " about " ++ pathList paths

/-- The error that a read fails with; the paths are left out. -/
def toIo (e : BackendError) : IoError :=
  match e.cause with
  | .io error => error
  | .pathNotFound => .raised .notFound "watched path not found"
  | .generic text => .raised .other ("Generic(" ++ Text.quoted text ++ ")")
  | .watchNotFound => .raised .other "WatchNotFound"
  | .invalidSettings shown => .raised .other ("InvalidConfig(" ++ shown ++ ")")
  | .tooManyWatches => .raised .other "MaxFilesWatch"

end BackendError

end DirWatch
