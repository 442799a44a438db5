import DirWatch.Error.Backend
import DirWatch.Notice.Basic
import DirWatch.Path.FileTree
import DirWatch.Watch.Handle

/-!
# Hosts

What a watch finds around it: the file system, a notification backend and a system that may refuse
the next request, and the numbers that watches are named by.
-/

namespace DirWatch

/-- What the backend delivers to a directory that it observes. -/
abbrev Delivery := Except BackendError Notice

/-- The surroundings of watches. -/
structure Host where
  tree : FileTree
  /-- Why the backend will refuse to be created the next time. -/
  openFailure : Option BackendError := none
  /-- Why the backend will refuse to observe a directory the next time. -/
  watchFailure : Option BackendError := none
  /-- Why no worker can be started the next time. -/
  workerFailure : Option IoError := none
  /-- What the backend delivers as soon as it observes the directory with this root. -/
  waiting : List (RawPath × List Delivery) := []
  /-- The number of the next watch, which only goes up; a word of 64 bits agrees up to
  `2 ^ 64 - 1`. -/
  nextHandle : Nat := 1

namespace Host

/-- Names a watch. -/
def allocate (host : Host) : Handle × Host :=
  (⟨host.nextHandle⟩, { host with nextHandle := host.nextHandle + 1 })

/-- Creates a backend: the refusal, if there is one, is used up. -/
def createBackend (host : Host) : Except BackendError Unit × Host :=
  match host.openFailure with
  | none => (.ok (), host)
  | some e => (.error e, { host with openFailure := none })

/-- What the backend delivers at once when it observes the directory with this root. -/
def atOnce (host : Host) (root : RawPath) : List Delivery :=
  (host.waiting.filter fun w => w.1 == root).flatMap (·.2)

/-- Has the backend observe a directory: the refusal, if there is one, is used up. Otherwise all
that it delivers at once is returned. -/
def observe (host : Host) (root : RawPath) : Except BackendError (List Delivery) × Host :=
  match host.watchFailure with
  | none => (.ok (host.atOnce root), host)
  | some e => (.error e, { host with watchFailure := none })

/-- Starts a worker: the refusal, if there is one, is used up. -/
def startWorker (host : Host) : Except IoError Unit × Host :=
  match host.workerFailure with
  | none => (.ok (), host)
  | some e => (.error e, { host with workerFailure := none })

end Host

end DirWatch
