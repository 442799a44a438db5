import DirWatch.Record.Buffer

/-!
# Bytes in a buffer

`Buffer.Holds` says which bytes a buffer has from an offset on. What was written is held
(`Buffer.holds_write`), a write elsewhere disturbs nothing (`Buffer.Holds.write_apart`), and numbers
read back from the bytes that spell them (`Buffer.Holds.wordAt`, `Buffer.Holds.unitsAt`).
-/

namespace DirWatch.Buffer

/-- The buffer has these bytes from an offset on. -/
def Holds (buffer : Buffer) (offset : Nat) (bytes : List UInt8) : Prop :=
  ∀ i, i < bytes.length → buffer[offset + i]? = bytes[i]?

variable {buffer : Buffer} {offset : Nat} {bytes : List UInt8}

theorem holds_append {more : List UInt8} :
    buffer.Holds offset (bytes ++ more) ↔
      buffer.Holds offset bytes ∧ buffer.Holds (offset + bytes.length) more := by
  constructor
  · intro h
    refine ⟨?_, ?_⟩
    · intro i hi
      rw [h i (by rw [List.length_append]; omega), List.getElem?_append_left hi]
    · intro i hi
      have there := h (bytes.length + i) (by rw [List.length_append]; omega)
      rw [List.getElem?_append_right (Nat.le_add_right ..), Nat.add_sub_cancel_left] at there
      rw [← there, Nat.add_assoc]
  · rintro ⟨front, back⟩ i hi
    rw [List.length_append] at hi
    by_cases inside : i < bytes.length
    · rw [front i inside, List.getElem?_append_left inside]
    · have there := back (i - bytes.length) (by omega)
      rw [show offset + bytes.length + (i - bytes.length) = offset + i by omega] at there
      rw [there, List.getElem?_append_right (by omega)]

/-- Bytes that a buffer holds lie within it. -/
theorem Holds.le_size (h : buffer.Holds offset bytes) (some_byte : bytes ≠ []) :
    offset + bytes.length ≤ buffer.size := by
  have length_pos := List.length_pos_iff.mpr some_byte
  have there := h (bytes.length - 1) (by omega)
  rw [List.getElem?_eq_getElem (by omega)] at there
  obtain ⟨inside, -⟩ := Array.getElem?_eq_some_iff.mp there
  omega

/-! ## Writing -/

theorem getElem?_write_apart {i : Nat} (apart : i < offset ∨ offset + bytes.length ≤ i) :
    (buffer.write offset bytes)[i]? = buffer[i]? := by
  rw [getElem?_write, if_neg (by omega)]

/-- What is written within a buffer is held by it. -/
theorem holds_write (inside : offset + bytes.length ≤ buffer.size) :
    (buffer.write offset bytes).Holds offset bytes := by
  intro i hi
  rw [getElem?_write, if_pos (by omega), Nat.add_sub_cancel_left]

/-- A write before or behind leaves bytes as they are. -/
theorem Holds.write_apart (h : buffer.Holds offset bytes) {start : Nat} {others : List UInt8}
    (apart : start + others.length ≤ offset ∨ offset + bytes.length ≤ start) :
    (buffer.write start others).Holds offset bytes := by
  intro i hi
  rw [getElem?_write_apart (by omega)]
  exact h i hi

/-! ## Reading -/

@[simp] theorem length_wordBytes (w : UInt32) : (wordBytes w).length = 4 := rfl

@[simp] theorem length_unitBytes (u : UInt16) : (unitBytes u).length = 2 := rfl

theorem Holds.byteAt (h : buffer.Holds offset bytes) {i : Nat} (hi : i < bytes.length) :
    buffer.byteAt (offset + i) = bytes[i] := by
  rw [Buffer.byteAt, h i hi, List.getElem?_eq_getElem hi, Option.getD_some]

/-- The four bytes of a number, put together, are the number. -/
theorem join_wordBytes (w : UInt32) :
    w.toUInt8.toUInt32 ||| (w >>> 8).toUInt8.toUInt32 <<< 8 |||
      (w >>> 16).toUInt8.toUInt32 <<< 16 ||| (w >>> 24).toUInt8.toUInt32 <<< 24 = w := by
  apply UInt32.toNat_inj.mp
  apply Nat.eq_of_testBit_eq
  intro i
  simp only [UInt32.toNat_or, UInt32.toNat_shiftLeft, UInt32.toNat_shiftRight,
    UInt8.toNat_toUInt32, UInt32.toNat_toUInt8, Nat.testBit_or, Nat.testBit_mod_two_pow,
    Nat.testBit_shiftLeft, Nat.testBit_shiftRight, UInt32.reduceToNat, Nat.reduceMod]
  by_cases inside : i < 32
  · grind
  · have above : w.toNat.testBit i = false := Nat.testBit_lt_two_pow
      (Nat.lt_of_lt_of_le w.toNat_lt (Nat.pow_le_pow_right (by decide) (by omega)))
    grind

/-- The two bytes of a number, put together, are the number. -/
theorem join_unitBytes (u : UInt16) :
    u.toUInt8.toUInt16 ||| (u >>> 8).toUInt8.toUInt16 <<< 8 = u := by
  apply UInt16.toNat_inj.mp
  apply Nat.eq_of_testBit_eq
  intro i
  simp only [UInt16.toNat_or, UInt16.toNat_shiftLeft, UInt16.toNat_shiftRight,
    UInt8.toNat_toUInt16, UInt16.toNat_toUInt8, Nat.testBit_or, Nat.testBit_mod_two_pow,
    Nat.testBit_shiftLeft, Nat.testBit_shiftRight, UInt16.reduceToNat, Nat.reduceMod]
  by_cases inside : i < 16
  · grind
  · have above : u.toNat.testBit i = false := Nat.testBit_lt_two_pow
      (Nat.lt_of_lt_of_le u.toNat_lt (Nat.pow_le_pow_right (by decide) (by omega)))
    grind

/-- A number of 32 bits reads back. -/
theorem Holds.wordAt {w : UInt32} (h : buffer.Holds offset (wordBytes w)) :
    buffer.wordAt offset = w := by
  have b0 := h.byteAt (i := 0) (by simp)
  have b1 := h.byteAt (i := 1) (by simp)
  have b2 := h.byteAt (i := 2) (by simp)
  have b3 := h.byteAt (i := 3) (by simp)
  rw [Nat.add_zero] at b0
  rw [Buffer.wordAt, b0, b1, b2, b3]
  exact join_wordBytes w

theorem Holds.unitAt {u : UInt16} (h : buffer.Holds offset (unitBytes u)) :
    buffer.unitAt offset = u := by
  have b0 := h.byteAt (i := 0) (by simp)
  have b1 := h.byteAt (i := 1) (by simp)
  rw [Nat.add_zero] at b0
  rw [Buffer.unitAt, b0, b1]
  exact join_unitBytes u

@[simp] theorem length_flatMap_unitBytes (units : List UInt16) :
    (units.flatMap unitBytes).length = 2 * units.length := by
  induction units with
  | nil => rfl
  | cons u units ih =>
    rw [List.flatMap_cons, List.length_append, length_unitBytes, ih, List.length_cons]
    omega

/-- Numbers of 16 bits, one behind the other, read back. -/
theorem Holds.unitsAt {units : List UInt16}
    (h : buffer.Holds offset (units.flatMap unitBytes)) :
    buffer.unitsAt offset units.length = units := by
  induction units generalizing offset with
  | nil => rfl
  | cons u units ih =>
    rw [List.flatMap_cons] at h
    obtain ⟨here, behind⟩ := holds_append.mp h
    rw [length_unitBytes] at behind
    rw [List.length_cons, Buffer.unitsAt, here.unitAt, ih behind]

end DirWatch.Buffer
