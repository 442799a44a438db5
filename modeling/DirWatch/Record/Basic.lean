import DirWatch.Change.Basic
import DirWatch.Record.Buffer
import DirWatch.Text.Utf16

/-!
# Change records

A finished read leaves change records in its buffer, one behind the other:

```text
offset  size  field
     0     4  distance to the next record; 0 in the last one
     4     4  action code
     8     4  length of the name in bytes
    12     n  name in UTF-16
```

Every number has its low byte first. Reading never fails: it stops at the first record that is not
sound and keeps those before it.
-/

namespace DirWatch

namespace Record

/-- The size of the fields before the name. -/
def headerSize : Nat := 12

/-- The first offset from `n` on where a record may start. -/
def alignUp (n : Nat) : Nat := (n + 3) / 4 * 4

/-- A record's size for a name of so many units, without what aligns the next record. -/
def sizeFor (units : Nat) : Nat := headerSize + 2 * units

end Record

/-- A record where it stands in a buffer. -/
structure Record where
  start : Nat
  /-- The distance to the next record. -/
  next : Nat
  action : UInt32
  units : List UInt16
  deriving DecidableEq

namespace Record

/-- The name of a record; a surrogate without its partner reads as U+FFFD. -/
def name (r : Record) : String := String.ofList (Text.decodeUnits r.units)

/-- The offset behind a record. -/
def finish (r : Record) : Nat := r.start + sizeFor r.units.length

/-- The change that a record reports. -/
def change (r : Record) : Change := ⟨Action.ofCode r.action, r.name⟩

/-! ## Reading -/

/-- The record at an offset, if the first `limit` bytes hold a sound one there: the header and the
name lie within them, the name is made of at least one unit, and the next record does not start
inside this one. -/
def at? (buffer : Buffer) (limit offset : Nat) : Option Record :=
  if limit < offset + headerSize then none
  else
    let next := (buffer.wordAt offset).toNat
    let nameSize := (buffer.wordAt (offset + 8)).toNat
    if nameSize = 0 ∨ nameSize % 2 ≠ 0 then none
    else if limit < offset + headerSize + nameSize then none
    else if next ≠ 0 ∧ next < headerSize + nameSize then none
    else some ⟨offset, next, buffer.wordAt (offset + 4),
      buffer.unitsAt (offset + headerSize) (nameSize / 2)⟩

/-- A sound record lies within the limit, and the next one starts behind it. -/
theorem at?_bounds {buffer : Buffer} {limit offset : Nat} {r : Record}
    (h : at? buffer limit offset = some r) :
    r.start = offset ∧ offset + headerSize < limit ∧
      (r.next ≠ 0 → headerSize < r.next) := by
  simp only [at?] at h
  split at h
  · simp at h
  · split at h
    · simp at h
    · split at h
      · simp at h
      · split at h
        · simp at h
        · simp only [Option.some.injEq] at h
          subst h
          simp only [headerSize] at *
          exact ⟨trivial, by omega, by omega⟩

/-- The records from an offset on. -/
def walk (buffer : Buffer) (limit offset : Nat) : List Record :=
  match _h : at? buffer limit offset with
  | none => []
  | some r => if r.next = 0 then [r] else r :: walk buffer limit (offset + r.next)
termination_by limit - offset
decreasing_by
  have := at?_bounds _h
  simp only [headerSize] at this
  omega

/-- The records in the first `count` bytes of a buffer, or in all of it if it is shorter. -/
def all (buffer : Buffer) (count : Nat) : List Record :=
  walk buffer (min count buffer.size) 0

/-- The changes that the first `count` bytes of a buffer report. -/
def decode (buffer : Buffer) (count : Nat) : List Change := (all buffer count).map change

end Record

end DirWatch
