import DirWatch.Record.Basic

/-!
# Writing change records

Records are added to a buffer of fixed size. Each one starts at a multiple of four bytes, and the
record before it is told how far away it is. A record that does not fit, or has no name, is refused
and nothing is written.
-/

namespace DirWatch

/-- A buffer with the records written so far. -/
structure RecordWriter where
  buffer : Buffer
  /-- Where the last record starts. -/
  last : Option Nat
  /-- The offset behind the last record. -/
  finish : Nat

namespace RecordWriter

/-- Starts at the front of a buffer, whatever it holds. -/
def start (buffer : Buffer) : RecordWriter := ⟨buffer, none, 0⟩

def isEmpty (w : RecordWriter) : Bool := w.last.isNone

/-- Where the next record starts. -/
def nextStart (w : RecordWriter) : Nat :=
  match w.last with
  | none => 0
  | some _ => Record.alignUp w.finish

/-- Tells the last record where the next one starts. -/
def linkTo (w : RecordWriter) (start : Nat) : Buffer :=
  match w.last with
  | none => w.buffer
  | some last => w.buffer.write last (Buffer.wordBytes (UInt32.ofNat (start - last)))

/-- The bytes of a record that is the last one. -/
def recordBytes (action : Action) (units : List UInt16) : List UInt8 :=
  Buffer.wordBytes 0 ++ Buffer.wordBytes action.code ++
    Buffer.wordBytes (UInt32.ofNat (2 * units.length)) ++ units.flatMap Buffer.unitBytes

/-- Tells whether a record with a name of so many units can be added: there is a name, it ends
within the buffer, and its length and the distance to it are numbers of 32 bits. -/
def fits (w : RecordWriter) (units : Nat) : Bool :=
  units ≠ 0 && w.nextStart + Record.sizeFor units ≤ w.buffer.size && 2 * units < UInt32.size &&
    w.nextStart - w.last.getD 0 < UInt32.size

/-- Adds a record, unless it is refused. -/
def push? (w : RecordWriter) (action : Action) (name : String) : Option RecordWriter :=
  let units := Text.encodeUnits name.toList
  if w.fits units.length then
    let start := w.nextStart
    some ⟨(w.linkTo start).write start (recordBytes action units), some start,
      start + Record.sizeFor units.length⟩
  else none

end RecordWriter

end DirWatch
