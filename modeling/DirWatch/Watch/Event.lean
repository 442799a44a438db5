import DirWatch.Change.Json
import DirWatch.Error.Io
import DirWatch.Watch.Handle

/-!
# Events

What a watch reports: a list of changes, or the error that ended its reads. `Event.json` is the form
in which an event leaves the program.
-/

namespace DirWatch

/-- What a report carries. -/
inductive Payload where
  /-- Changes in the order in which they happened. -/
  | changes (changes : List Change)
  /-- The watch reads no more. -/
  | failure (error : IoError)
  deriving DecidableEq

/-- What kind of report it is. -/
inductive EventStatus where
  | changes
  | noChanges
  | error
  deriving DecidableEq

/-- The name of a status in output. -/
def EventStatus.label : EventStatus → String
  | changes => "changes"
  | noChanges => "no_changes"
  | error => "error"

namespace Payload

def status : Payload → EventStatus
  | changes [] => .noChanges
  | changes (_ :: _) => .changes
  | failure _ => .error

def changeList : Payload → List Change
  | changes cs => cs
  | failure _ => []

def error? : Payload → Option IoError
  | changes _ => none
  | failure e => some e

end Payload

/-- A report with the watch that it comes from. -/
structure Event where
  handle : Handle
  payload : Payload
  deriving DecidableEq

namespace Event

def status (e : Event) : EventStatus := e.payload.status

def changes (e : Event) : List Change := e.payload.changeList

def error? (e : Event) : Option IoError := e.payload.error?

/-- An event as a JSON value; only error events have the last member. -/
def json (e : Event) : Json.Value :=
  .object ([("handle", e.handle.json), ("status", .string e.status.label),
    ("changes", .array (e.changes.map Change.json))] ++
    match e.error? with
    | some err => [("error", err.json)]
    | none => [])

end Event

end DirWatch
