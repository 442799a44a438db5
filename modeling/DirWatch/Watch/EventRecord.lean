import DirWatch.Json.AnyValue
import DirWatch.Watch.Event

/-!
# Event records

What an event tells those who read the output of the program: the kind, the number and the message
of an error stand in the place of the error itself. A record is read from an object with the members
that `Event.json` writes; only the error of an event and the number of an error may be missing.
-/

namespace DirWatch

open Json

/-- What is told about an error. -/
structure ErrorRecord where
  kind : String
  /-- The operating system's number, if it has one. -/
  code : Option Int
  message : String
  deriving DecidableEq

/-- What is told about an event. -/
structure EventRecord where
  handle : Handle
  status : EventStatus
  changes : List Change
  error : Option ErrorRecord
  deriving DecidableEq

def IoError.record (e : IoError) : ErrorRecord := ⟨e.kind.label, e.code?, e.message⟩

def Event.record (e : Event) : EventRecord :=
  ⟨e.handle, e.status, e.changes, e.error?.map IoError.record⟩

/-! ## Reading -/

/-- Every status, in the order of declaration. -/
def EventStatus.all : List EventStatus := [changes, noChanges, error]

def EventStatus.reader : Reader EventStatus :=
  Reader.label (EventStatus.all.map fun s => (s.label, s))

/-- The parts of an error that have been read. -/
structure ErrorRecord.Draft where
  kind : Option String
  code : Option (Option Int)
  message : Option String

/-- How an error is read. -/
def ErrorRecord.shape : Shape ErrorRecord.Draft ErrorRecord where
  name := "ErrorRecord"
  members := [
    ⟨"kind", fun d => d.kind.isSome,
      (Reader.string "a string").map fun k d => { d with kind := some k }⟩,
    ⟨"code", fun d => d.code.isSome,
      Reader.optionalInt32.map fun c d => { d with code := some c }⟩,
    ⟨"message", fun d => d.message.isSome,
      (Reader.string "a string").map fun m d => { d with message := some m }⟩]
  blank := ⟨none, none, none⟩
  complete
    | ⟨some kind, code, some message⟩ => .ok ⟨kind, code.join, message⟩
    | ⟨none, _, _⟩ => .error "kind"
    | ⟨some _, _, none⟩ => .error "message"

def ErrorRecord.reader : Reader ErrorRecord := ErrorRecord.shape.reader

/-- The parts of an event that have been read. -/
structure EventRecord.Draft where
  handle : Option Handle
  status : Option EventStatus
  changes : Option (List Change)
  error : Option ErrorRecord

/-- How an event is read. -/
def EventRecord.shape : Shape EventRecord.Draft EventRecord where
  name := "EventRecord"
  members := [
    ⟨"handle", fun d => d.handle.isSome, Handle.reader.map fun h d => { d with handle := some h }⟩,
    ⟨"status", fun d => d.status.isSome,
      EventStatus.reader.map fun s d => { d with status := some s }⟩,
    ⟨"changes", fun d => d.changes.isSome,
      (Reader.list Change.reader).map fun cs d => { d with changes := some cs }⟩,
    ⟨"error", fun d => d.error.isSome,
      ErrorRecord.reader.map fun e d => { d with error := some e }⟩]
  blank := ⟨none, none, none, none⟩
  complete
    | ⟨some handle, some status, some changes, error⟩ => .ok ⟨handle, status, changes, error⟩
    | ⟨none, _, _, _⟩ => .error "handle"
    | ⟨some _, none, _, _⟩ => .error "status"
    | ⟨some _, some _, none, _⟩ => .error "changes"

def EventRecord.reader : Reader EventRecord := EventRecord.shape.reader

end DirWatch
