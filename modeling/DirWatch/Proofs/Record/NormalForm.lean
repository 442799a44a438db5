import DirWatch.Proofs.Record.Chains
import DirWatch.Proofs.Record.RoundTrip
import DirWatch.Proofs.Text.Lossy

/-!
# Writing again what was read

Whatever bytes a buffer holds, the changes that it decodes to can be written into another one and
read back as they are (`Record.decode_rewrite`). A name that reads with U+FFFD in place of a lone
surrogate is as long as it was (`Text.length_encodeUnits_decodeUnits`), records lie apart, so that
their sizes together are no more than the bytes that were read (`Record.Chain.sum_sizes_le`), and
each record but the first needs at most two bytes more for its start (`Record.fitting_eq_placed`).
-/

namespace DirWatch

namespace Text

/-! ## Names keep their length -/

theorem unitsOfChar_replacement : unitsOfChar replacement = [0xFFFD] := by decide

/-- A unit by itself reads as a character of one unit. -/
theorem length_unitsOfChar_charOfUnit (u : UInt16) : (unitsOfChar (charOfUnit u)).length = 1 := by
  unfold charOfUnit
  split
  · rw [unitsOfChar_replacement]
    rfl
  · next plain =>
    -- outside the surrogates the unit is the number of its character
    have value : (Char.ofNat u.toNat).toNat = u.toNat := by
      have bound := u.toNat_lt
      simp only [isHighSurrogate, isLowSurrogate, UInt16.le_iff_toNat_le, Bool.or_eq_true,
        Bool.and_eq_true, decide_eq_true_eq, UInt16.reduceToNat] at plain
      exact toNat_ofNat_of_valid (by omega)
    have low : (Char.ofNat u.toNat).toNat < 0x10000 := by
      rw [value]
      exact u.toNat_lt
    rw [unitsOfChar, if_pos low]
    rfl

/-- A pair reads as a character of two units. -/
theorem length_unitsOfChar_charOfPair {u v : UInt16} (high : isHighSurrogate u = true)
    (low : isLowSurrogate v = true) : (unitsOfChar (charOfPair u v)).length = 2 := by
  simp only [isHighSurrogate, isLowSurrogate, UInt16.le_iff_toNat_le, Bool.and_eq_true,
    decide_eq_true_eq, UInt16.reduceToNat] at high low
  have value : (charOfPair u v).toNat =
      0x10000 + (u.toNat - 0xD800) * 0x400 + (v.toNat - 0xDC00) :=
    toNat_ofNat_of_valid (by omega)
  have beyond : ¬ (charOfPair u v).toNat < 0x10000 := by
    rw [value]
    omega
  rw [unitsOfChar, if_neg beyond]
  rfl

/-- Forgiving reading neither adds units nor takes any away. -/
theorem length_encodeUnits_decodeUnits (units : List UInt16) :
    (encodeUnits (decodeUnits units)).length = units.length := by
  fun_induction decodeUnits units with
  | case1 => rfl
  | case2 u =>
    rw [encodeUnits, List.flatMap_singleton, length_unitsOfChar_charOfUnit]
    rfl
  | case3 u v rest pair ih =>
    simp only [Bool.and_eq_true] at pair
    have two := length_unitsOfChar_charOfPair pair.1 pair.2
    rw [encodeUnits, List.flatMap_cons, List.length_append, two]
    rw [encodeUnits] at ih
    simp only [ih, List.length_cons]
    omega
  | case4 u v rest single ih =>
    have one := length_unitsOfChar_charOfUnit u
    rw [encodeUnits, List.flatMap_cons, List.length_append, one]
    rw [encodeUnits] at ih
    simp only [ih, List.length_cons]
    omega

end Text

namespace Record

variable {buffer : Buffer} {limit offset stop : Nat} {rs : List Record}

/-! ## Sizes -/

/-- A record is as large as the record of the change that it reports. -/
theorem recordSize_change (r : Record) : r.change.recordSize = sizeFor r.units.length := by
  rw [Change.recordSize, Change.units, change, name, String.toList_ofList,
    Text.length_encodeUnits_decodeUnits]

/-- The sizes of the records that changes need, without what aligns them. -/
def sizes (cs : List Change) : Nat := (cs.map Change.recordSize).sum

theorem sizes_cons (c : Change) (cs : List Change) : sizes (c :: cs) = c.recordSize + sizes cs := by
  rw [sizes, List.map_cons, List.sum_cons]
  rfl

/-- What a buffer decodes to has names. -/
theorem path_ne_of_mem_decode {count : Nat} {c : Change} (mem : c ∈ decode buffer count) :
    c.path ≠ "" := by
  obtain ⟨r, found, rfl⟩ := List.mem_map.mp mem
  obtain ⟨stop, chain⟩ := exists_chain buffer (min count buffer.size) 0
  have named := (chain.stands r found).named
  rw [← r.change.named_iff, Change.Named]
  apply List.ne_nil_of_length_pos
  rw [Change.units, change, name, String.toList_ofList, Text.length_encodeUnits_decodeUnits]
  exact List.length_pos_iff.mpr named

/-- The changes that a buffer decodes to need no more than the bytes that were read. -/
theorem sizes_decode_le (buffer : Buffer) (count : Nat) :
    sizes (decode buffer count) ≤ min count buffer.size := by
  have same : sizes (decode buffer count) =
      ((all buffer count).map fun r => sizeFor r.units.length).sum := by
    simp only [sizes, decode, List.map_map, Function.comp_def, recordSize_change]
  obtain ⟨stop, chain⟩ := exists_chain buffer (min count buffer.size) 0
  rw [same, all]
  rcases chain.sum_sizes_le with none_found | bound
  · rw [none_found]
    exact Nat.zero_le _
  · omega

/-! ## Room -/

/-- Behind a record that starts where it may, the next one starts at most two bytes later. -/
theorem alignUp_le {start : Nat} (aligned : 4 ∣ start) (c : Change) :
    alignUp (start + c.recordSize) ≤ start + c.recordSize + 2 := by
  simp only [alignUp, Change.recordSize, sizeFor, headerSize]
  omega

/-- Changes find room where there are two bytes more for each of them but the first. -/
theorem fitting_eq_placed {size start : Nat} {cs : List Change} (aligned : 4 ∣ start)
    (named : ∀ c ∈ cs, c.path ≠ "") (room : start + sizes cs + 2 * (cs.length - 1) ≤ size) :
    fitting size start cs = placed start cs := by
  induction cs generalizing start with
  | nil => rfl
  | cons c rest ih =>
    rw [sizes_cons, List.length_cons] at room
    have inside : start + c.recordSize ≤ size := by omega
    rw [fitting, placed, if_pos ⟨named c List.mem_cons_self, inside⟩]
    congr 1
    cases rest with
    | nil => rfl
    | cons d rest =>
      have next := alignUp_le aligned c
      refine ih (Nat.dvd_mul_left 4 _) (fun d mem => named d (List.mem_cons_of_mem c mem)) ?_
      rw [List.length_cons] at room ⊢
      omega

theorem map_fst_placed (start : Nat) (cs : List Change) : (placed start cs).map Prod.fst = cs := by
  induction cs generalizing start with
  | nil => rfl
  | cons c rest ih => rw [placed, List.map_cons, ih]

end Record

namespace RecordWriter

open Record

/-- The last record says that none follows, so nothing is read behind it. -/
theorem Written.decode_behind {w : RecordWriter} {cs : List Change} (h : w.Written cs)
    (some_change : cs ≠ []) {k : Nat} (behind : w.finish ≤ k) : decode w.buffer k = cs := by
  have inside := Nat.le_min.mpr ⟨behind, h.finish_le_size⟩
  cases h with
  | start buffer => exact absurd rfl some_change
  | laid laid => rw [decode, all, walk_of_laid laid, within_of_laid laid inside]

end RecordWriter

namespace Record

/-- Whatever bytes are read, well-formed or not: the changes that they decode to find room, one
after another, in any buffer that is longer by two bytes for each change but the first. None is
refused, and what has been written decodes to the same changes again. -/
theorem decode_rewrite (buffer other : Buffer) (count : Nat)
    (some_change : decode buffer count ≠ [])
    (room : min count buffer.size + 2 * ((decode buffer count).length - 1) ≤ other.size)
    (small : other.size < UInt32.size) :
    let changes := decode buffer count
    let w := ((RecordWriter.start other).pushAll changes).1
    let taken := ((RecordWriter.start other).pushAll changes).2
    taken.map Prod.fst = changes ∧ ∀ k, w.finish ≤ k → decode w.buffer k = changes := by
  intro changes w taken
  have sizes_le : sizes changes ≤ min count buffer.size := sizes_decode_le buffer count
  have all_taken : taken.map Prod.fst = changes := by
    have placed_all : fitting other.size 0 changes = placed 0 changes := by
      refine fitting_eq_placed (Nat.dvd_zero 4) (fun c mem => path_ne_of_mem_decode mem) ?_
      show 0 + sizes changes + 2 * ((decode buffer count).length - 1) ≤ other.size
      omega
    have fits : taken = fitting other.size 0 changes := RecordWriter.pushAll_fitting small changes
    rw [fits, placed_all, map_fst_placed]
  refine ⟨all_taken, ?_⟩
  intro k behind
  obtain ⟨written, -⟩ := (RecordWriter.Written.start other).pushAll changes
  have written : w.Written (taken.map Prod.fst) := written
  rw [all_taken] at written
  exact written.decode_behind some_change behind

/-- A lone surrogate under a code that names no action, and behind it, not at a multiple of four, an
`x` whose record leads far beyond the end. -/
def oddRecords : Buffer :=
  #[14, 0, 0, 0, 99, 0, 0, 0, 2, 0, 0, 0, 0x00, 0xD8,
    255, 255, 255, 255, 2, 0, 0, 0, 2, 0, 0, 0, 0x78, 0x00]

/-- 28 bytes are read, and 30 are just enough to write the two changes again. -/
theorem decode_rewrite_oddRecords :
    decode oddRecords 28 = [⟨.unknown, "\uFFFD"⟩, ⟨.removed, "x"⟩] ∧
      min 28 oddRecords.size + 2 * ((decode oddRecords 28).length - 1) = 30 ∧
      decode ((RecordWriter.start (Array.replicate 30 255)).pushAll
        (decode oddRecords 28)).1.buffer 30 = [⟨.unknown, "\uFFFD"⟩, ⟨.removed, "x"⟩] := by
  have decoded : decode oddRecords 28 = [⟨.unknown, "\uFFFD"⟩, ⟨.removed, "x"⟩] := by
    decide +kernel
  have room : min 28 oddRecords.size + 2 * ((decode oddRecords 28).length - 1) = 30 := by
    rw [decoded]
    rfl
  have some_change : decode oddRecords 28 ≠ [] := by
    rw [decoded]
    exact List.cons_ne_nil _ _
  have finish : ((RecordWriter.start (Array.replicate 30 255)).pushAll
      (decode oddRecords 28)).1.finish = 30 := by
    rw [decoded]
    decide +kernel
  have size : (Array.replicate 30 (255 : UInt8)).size = 30 := rfl
  obtain ⟨-, again⟩ := decode_rewrite oddRecords (Array.replicate 30 255) 28 some_change
    (by rw [room, size]) (by rw [size]; decide)
  exact ⟨decoded, room, (again 30 (Nat.le_of_eq finish)).trans decoded⟩

end Record

end DirWatch
