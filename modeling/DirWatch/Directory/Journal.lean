import DirWatch.Error.Io
import DirWatch.Record.Writer

/-!
# Journals

A journal holds what a directory has to tell and no read has asked for yet: changes in order, the
news that changes were lost, and the error that ended the backend. A journal that is full gives up
what it holds and remembers only that changes were lost; until a read has told so, further changes
are given up too. Errors wait for everything that came before them.
-/

namespace DirWatch

/-- The result of a read. -/
inductive Completion where
  /-- The first `bytes` bytes of the buffer hold records. None at all means that changes were lost,
  or that none of them fitted. -/
  | done (buffer : Buffer) (bytes : Nat)
  /-- The read failed, and its buffer is gone. -/
  | failed (error : IoError)

/-- What waits for a read. -/
structure Journal where
  /-- The most changes that may wait. -/
  capacity : Nat
  pending : List Change
  /-- Changes were lost, and no read has told so. -/
  overflowed : Bool
  failure : Option IoError

namespace Journal

/-- A journal with nothing in it. There is always room for one change. -/
def empty (capacity : Nat) : Journal := ⟨max 1 capacity, [], false, none⟩

/-- Tells whether a read would end at once. -/
def hasOutput (j : Journal) : Bool :=
  !j.pending.isEmpty || j.overflowed || j.failure.isSome

/-- Gives up all changes. -/
def overflow (j : Journal) : Journal := { j with pending := [], overflowed := true }

/-- Takes a change in. -/
def push (j : Journal) (c : Change) : Journal :=
  if j.overflowed then j
  else if j.capacity ≤ j.pending.length then j.overflow
  else { j with pending := j.pending ++ [c] }

/-- Takes an error in, in place of one that is there. -/
def fail (j : Journal) (e : IoError) : Journal := { j with failure := some e }

/-- Writes changes as long as they fit. One that does not fit into a buffer without records never
will, and is given up. -/
def pack (w : RecordWriter) : List Change → RecordWriter × List Change
  | [] => (w, [])
  | c :: rest =>
    match w.push? c.action c.path with
    | some w => pack w rest
    | none => if w.isEmpty then pack w rest else (w, c :: rest)

/-- Ends a read with what the journal has: the loss of changes, else the changes that fit into the
buffer, else the error. -/
def complete (j : Journal) (buffer : Buffer) : Completion × Journal :=
  if j.overflowed then (.done buffer 0, { j with overflowed := false })
  else
    match j.pending, j.failure with
    | [], some e => (.failed e, { j with failure := none })
    | pending, _ =>
      let (w, rest) := pack (.start buffer) pending
      (.done w.buffer w.finish, { j with pending := rest })

end Journal

end DirWatch
