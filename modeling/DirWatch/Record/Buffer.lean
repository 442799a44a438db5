/-!
# Buffers

A buffer is an array of bytes of fixed size. Bytes are written at an offset, numbers with their low
byte first. `getElem?_write` says what a write changes and that it changes nothing else.
-/

namespace DirWatch

/-- Bytes that a read fills. -/
abbrev Buffer := Array UInt8

namespace Buffer

/-- Writes bytes from an offset on; what does not fit is left out. -/
def write (buffer : Buffer) (offset : Nat) : List UInt8 → Buffer
  | [] => buffer
  | b :: bytes => write (buffer.setIfInBounds offset b) (offset + 1) bytes

def wordBytes (w : UInt32) : List UInt8 :=
  [w.toUInt8, (w >>> 8).toUInt8, (w >>> 16).toUInt8, (w >>> 24).toUInt8]

def unitBytes (u : UInt16) : List UInt8 := [u.toUInt8, (u >>> 8).toUInt8]

/-- The byte at an offset; zero beyond the end. -/
def byteAt (buffer : Buffer) (offset : Nat) : UInt8 := buffer[offset]?.getD 0

def unitAt (buffer : Buffer) (offset : Nat) : UInt16 :=
  (buffer.byteAt offset).toUInt16 ||| (buffer.byteAt (offset + 1)).toUInt16 <<< 8

def wordAt (buffer : Buffer) (offset : Nat) : UInt32 :=
  (buffer.byteAt offset).toUInt32 ||| (buffer.byteAt (offset + 1)).toUInt32 <<< 8 |||
    (buffer.byteAt (offset + 2)).toUInt32 <<< 16 ||| (buffer.byteAt (offset + 3)).toUInt32 <<< 24

/-- The numbers of 16 bits from an offset on, `count` of them. -/
def unitsAt (buffer : Buffer) (offset : Nat) : (count : Nat) → List UInt16
  | 0 => []
  | count + 1 => buffer.unitAt offset :: buffer.unitsAt (offset + 2) count

/-! ## What a write changes -/

@[simp] theorem size_write (buffer : Buffer) (offset : Nat) (bytes : List UInt8) :
    (buffer.write offset bytes).size = buffer.size := by
  induction bytes generalizing buffer offset with
  | nil => rfl
  | cons b bytes ih => simp [write, ih]

/-- A write replaces the bytes from its offset on and keeps all others. -/
theorem getElem?_write (buffer : Buffer) (offset : Nat) (bytes : List UInt8) (i : Nat) :
    (buffer.write offset bytes)[i]? =
      if offset ≤ i ∧ i < offset + bytes.length ∧ i < buffer.size then bytes[i - offset]?
      else buffer[i]? := by
  induction bytes generalizing buffer offset with
  | nil => simp [write]; omega
  | cons b bytes ih =>
    simp only [write, ih, Array.size_setIfInBounds, List.length_cons]
    by_cases before : i < offset
    · have here : offset ≠ i := by omega
      simp [show ¬ offset + 1 ≤ i by omega, show ¬ offset ≤ i by omega, here]
    · by_cases here : i = offset
      · subst here
        by_cases inside : i < buffer.size
        · simp [inside, show ¬ i + 1 ≤ i by omega]
        · simp [inside]
      · have shifted : i - offset = i - (offset + 1) + 1 := by omega
        have other : offset ≠ i := by omega
        rw [shifted, List.getElem?_cons_succ, Array.getElem?_setIfInBounds_ne other]
        by_cases inside : i < offset + 1 + bytes.length ∧ i < buffer.size
        · rw [if_pos ⟨by omega, by omega, by omega⟩, if_pos ⟨by omega, by omega, by omega⟩]
        · rw [if_neg (by omega), if_neg (by omega)]

end Buffer

end DirWatch
