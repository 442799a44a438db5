import DirWatch.Directory.Host
import DirWatch.Directory.Journal
import DirWatch.Error.Watch

/-!
# Directories

An open directory turns what the backend delivers into reads: a read is given a buffer and a signal,
ends as soon as the journal has something to tell, and raises the signal when it does. At most one
read is under way, from the moment it is accepted until its completion is taken. Each operation says
which signal it raised.
-/

namespace DirWatch

/-- The name of a signal. -/
abbrev SignalName := Nat

/-- Where the one read of a directory stands. -/
inductive ReadSlot where
  | idle
  /-- A read waits for something to tell. -/
  | armed (buffer : Buffer) (signal : SignalName)
  /-- A read has ended and its completion waits to be taken. -/
  | finished (completion : Completion)

/-- What the backend does for a directory. -/
inductive Observation where
  /-- It has not been asked yet. -/
  | idle
  /-- It observes the directory, or the whole tree below it. -/
  | observing (subtree : Bool)
  | closed
  deriving DecidableEq

/-- An open directory. -/
structure Directory where
  root : RawPath
  /-- The classes that the last read asked for. -/
  filter : Filter
  journal : Journal
  slot : ReadSlot
  observation : Observation

/-- What an operation returns: the directory afterwards, its answer and the signal it raised. -/
structure Directory.Step (α : Type) where
  directory : Directory
  answer : α
  raised : Option SignalName

namespace Directory

/-! ## Opening -/

/-- A directory that has just been opened. -/
def fresh (root : RawPath) (capacity : Nat) : Directory :=
  ⟨root, .empty, .empty capacity, .idle, .idle⟩

def «open» (host : Host) (path : String) (capacity : Nat) : Except WatchError Directory × Host :=
  let p := RawPath.ofString path
  if !host.tree.pathExists p then (.error (.pathNotFound path), host)
  else if !host.tree.isDirectory p then (.error (.notADirectory path), host)
  else
    match host.tree.canonical p with
    | .error e => (.error (.io e), host)
    | .ok root =>
      if (Text.ofBytes? root).isNone then
        (.error (.io (.raised .invalidData
          ("PathBuf contains invalid UTF-8: " ++ RawPath.display root))), host)
      else
        match host.createBackend with
        | (.error e, host) => (.error (.backend e), host)
        | (.ok (), host) => (.ok (fresh root capacity), host)

/-! ## Deliveries -/

/-- Ends the read that is armed, if the journal has something to tell. -/
def settle (d : Directory) : Step Unit :=
  match d.slot with
  | .armed buffer signal =>
    if d.journal.hasOutput then
      let (completion, journal) := d.journal.complete buffer
      ⟨{ d with journal, slot := .finished completion }, (), some signal⟩
    else ⟨d, (), none⟩
  | _ => ⟨d, (), none⟩

/-- Enters what the backend delivers into the journal. -/
def enter (present : RawPath → Bool) (d : Directory) (delivery : Delivery) : Directory :=
  match delivery with
  | .error e => { d with journal := d.journal.fail e.toIo }
  | .ok notice =>
    if notice.rescan then { d with journal := d.journal.overflow }
    else
      match notice.change? present d.root d.filter with
      | none => d
      | some c => { d with journal := d.journal.push c }

def enterAll (present : RawPath → Bool) (d : Directory) (deliveries : List Delivery) : Directory :=
  deliveries.foldl (enter present) d

/-- Takes what the backend delivers; a closed directory takes nothing. -/
def record (present : RawPath → Bool) (d : Directory) (delivery : Delivery) : Step Unit :=
  if d.observation = .closed then ⟨d, (), none⟩
  else (d.enter present delivery).settle

/-! ## Reads -/

/-- A request on a closed directory. -/
def closedError : IoError := .raised .notConnected "directory handle is closed"

/-- A request while a read is under way. -/
def busyError : IoError := .raised .resourceBusy "a read is already outstanding on this handle"

/-- Has the backend observe the directory, unless it does so already. What it delivers at once is
entered into the journal. -/
def observe (d : Directory) (host : Host) (subtree : Bool) :
    Except IoError Directory × Host :=
  match d.observation with
  | .closed => (.error closedError, host)
  | .observing _ => (.ok d, host)
  | .idle =>
    match host.observe d.root with
    | (.error e, host) => (.error e.toIo, host)
    | (.ok deliveries, host) =>
      let observed := { d with observation := .observing subtree }
      (.ok (observed.enterAll host.tree.pathExists deliveries), host)

/-- Asks for a read. It is refused if the directory is closed, a read is under way or the backend
will not observe the directory; the buffer is gone then. -/
def read (d : Directory) (host : Host) (buffer : Buffer) (subtree : Bool) (filter : Filter)
    (signal : SignalName) : Step (Except IoError Unit) × Host :=
  if d.observation = .closed then (⟨d, .error closedError, none⟩, host)
  else
    match d.slot with
    | .idle =>
      let asked := { d with filter }
      match asked.observe host subtree with
      | (.error e, host) => (⟨asked, .error e, none⟩, host)
      | (.ok observed, host) =>
        let settled := { observed with slot := .armed buffer signal }.settle
        (⟨settled.directory, .ok (), settled.raised⟩, host)
    | _ => (⟨d, .error busyError, none⟩, host)

/-- Takes the completion of the read that has ended, if one has. -/
def take (d : Directory) : Option Completion × Directory :=
  match d.slot with
  | .finished completion => (some completion, { d with slot := .idle })
  | _ => (none, d)

/-! ## Closing -/

/-- What a read fails with that is under way when its directory is closed. -/
def abortedError : IoError := .raised .interrupted "directory watch aborted"

/-- Closes a directory. A read that waits fails; the answer tells whether there was one. -/
def close (d : Directory) : Step Bool :=
  if d.observation = .closed then ⟨d, false, none⟩
  else
    let closed := { d with observation := .closed, journal := { d.journal with pending := [] } }
    match d.slot with
    | .armed _ signal =>
      ⟨{ closed with slot := .finished (.failed abortedError) }, true, some signal⟩
    | _ => ⟨closed, false, none⟩

end Directory

end DirWatch
