import DirWatch.Proofs.Notice.Names

/-!
# Written changes read back

A writer is offered changes one after another and takes those that it has room for
(`RecordWriter.pushAll_fitting`). Its buffer decodes to just these, and if it is cut off, to those
whose records end before the cut (`RecordWriter.Written.decode_cut`). What the buffer held before,
and what stands between the records and behind them, is never seen
(`RecordWriter.pushAll_reads_back`).
-/

namespace DirWatch

theorem Change.named_iff (c : Change) : c.Named ↔ c.path ≠ "" := by
  constructor
  · intro named nameless
    apply named
    rw [Change.units, nameless]
    rfl
  · intro some_name
    apply Text.encodeUnits_ne_nil
    intro nothing
    exact some_name (String.toList_eq_nil_iff.mp nothing)

namespace Record

/-- The changes that find room in a buffer of this size from `start` on, when each one that finds
none, or has no name, is passed over; with the offsets behind their records. -/
def fitting (size start : Nat) : List Change → List (Change × Nat)
  | [] => []
  | c :: rest =>
    if c.path ≠ "" ∧ start + c.recordSize ≤ size then
      (c, start + c.recordSize) :: fitting size (alignUp (start + c.recordSize)) rest
    else fitting size start rest

/-- Changes with the offsets behind their records, which are laid from `start` on. -/
def placed (start : Nat) : List Change → List (Change × Nat)
  | [] => []
  | c :: rest => (c, start + c.recordSize) :: placed (alignUp (start + c.recordSize)) rest

/-- The byte at this offset belongs to the record of one of these changes. -/
def Covers (placed : List (Change × Nat)) (i : Nat) : Prop :=
  ∃ x ∈ placed, x.2 - x.1.recordSize ≤ i ∧ i < x.2

/-- The records that end within a limit are those at the front whose ends say so. -/
theorem within_eq_takeWhile (limit start : Nat) (cs : List Change) :
    within limit start cs = ((placed start cs).takeWhile fun x => x.2 ≤ limit).map Prod.fst := by
  induction cs generalizing start with
  | nil => rfl
  | cons c rest ih =>
    rw [within, placed]
    by_cases inside : start + c.recordSize ≤ limit
    · rw [if_pos inside, List.takeWhile_cons_of_pos (by simpa using inside), List.map_cons, ih]
    · rw [if_neg inside, List.takeWhile_cons_of_neg (by simpa using inside)]
      rfl

variable {buffer other : Buffer} {start last finish : Nat} {cs : List Change}

/-- A buffer with the same bytes holds the same. -/
theorem holds_of_agree {offset : Nat} {bytes : List UInt8} (h : buffer.Holds offset bytes)
    (agree : ∀ i, offset ≤ i → i < offset + bytes.length → other[i]? = buffer[i]?) :
    other.Holds offset bytes := by
  intro i hi
  rw [agree (offset + i) (Nat.le_add_right ..) (Nat.add_lt_add_left hi offset)]
  exact h i hi

/-- Records stay where they are as long as none of their own bytes changes. -/
theorem Laid.of_agree (h : Laid buffer start last finish cs)
    (agree : ∀ i, Covers (placed start cs) i → other[i]? = buffer[i]?) :
    Laid other start last finish cs := by
  induction h with
  | @single start c storable here =>
    refine .single storable (holds_of_agree here ?_)
    intro i behind before
    rw [length_bytesOf] at before
    apply agree
    exact ⟨(c, start + c.recordSize), List.mem_cons_self, by simp only; omega, before⟩
  | @link start last finish c rest storable short here behind ih =>
    refine .link storable short (holds_of_agree here ?_) (ih ?_)
    · intro i behind before
      rw [length_bytesOf] at before
      apply agree
      exact ⟨(c, start + c.recordSize), List.mem_cons_self, by simp only; omega, before⟩
    · intro i covered
      obtain ⟨x, mem, inside⟩ := covered
      exact agree i ⟨x, List.mem_cons_of_mem _ mem, inside⟩

end Record

namespace RecordWriter

open Record

/-- Offers changes to a writer one after another. Those that it takes are returned, each with the
end of the writer just then: the offset behind its record. -/
def pushAll (w : RecordWriter) : List Change → RecordWriter × List (Change × Nat)
  | [] => (w, [])
  | c :: rest =>
    match w.push? c.action c.path with
    | none => w.pushAll rest
    | some w' => ((w'.pushAll rest).1, (c, w'.finish) :: (w'.pushAll rest).2)

variable {w w' : RecordWriter} {cs : List Change}

theorem pushAll_refused {c : Change} (refused : w.push? c.action c.path = none)
    (rest : List Change) : w.pushAll (c :: rest) = w.pushAll rest := by
  rw [pushAll, refused]

theorem pushAll_taken {c : Change} (taken : w.push? c.action c.path = some w')
    (rest : List Change) :
    w.pushAll (c :: rest) = ((w'.pushAll rest).1, (c, w'.finish) :: (w'.pushAll rest).2) := by
  rw [pushAll, taken]

theorem finish_of_push? {c : Change} (taken : w.push? c.action c.path = some w') :
    w'.finish = w.nextStart + c.recordSize := by
  rw [push?_eq] at taken
  split at taken
  · obtain rfl := Option.some.inj taken
    rfl
  · simp at taken

/-- What a writer takes lies in its buffer behind what it has taken before. -/
theorem Written.pushAll (h : w.Written cs) (offered : List Change) :
    (w.pushAll offered).1.Written (cs ++ (w.pushAll offered).2.map Prod.fst) ∧
      (w.pushAll offered).2 = placed w.nextStart ((w.pushAll offered).2.map Prod.fst) := by
  induction offered generalizing w cs with
  | nil =>
    refine ⟨?_, rfl⟩
    show w.Written (cs ++ [])
    rwa [List.append_nil]
  | cons c rest ih =>
    cases taken : w.push? c.action c.path with
    | none =>
      rw [pushAll_refused taken]
      exact ih h
    | some w' =>
      obtain ⟨written, next⟩ := h.push taken
      obtain ⟨all_written, places⟩ := ih written
      rw [pushAll_taken taken]
      constructor
      · show (w'.pushAll rest).1.Written (cs ++ c :: (w'.pushAll rest).2.map Prod.fst)
        rwa [List.append_assoc] at all_written
      · show (c, w'.finish) :: (w'.pushAll rest).2 =
          placed w.nextStart (c :: (w'.pushAll rest).2.map Prod.fst)
        rw [placed, finish_of_push? taken, ← next, ← places]

/-- A buffer that is cut off decodes to the changes whose records end before the cut. -/
theorem Written.decode_cut (h : w.Written cs) {k : Nat} (inside : k ≤ w.finish) :
    decode w.buffer k = ((placed 0 cs).takeWhile fun x => x.2 ≤ k).map Prod.fst := by
  rw [← within_eq_takeWhile, decode, all, Nat.min_eq_left (Nat.le_trans inside h.finish_le_size)]
  cases h with
  | start buffer =>
    obtain rfl : k = 0 := Nat.le_zero.mp inside
    have none_found : at? buffer 0 0 = none := by simp [at?, headerSize]
    rw [RecordWriter.start, walk, none_found]
    rfl
  | laid laid => exact walk_of_laid laid k

/-- Bytes that belong to no record do not matter. -/
theorem Written.of_agree (h : w.Written cs) {other : Buffer}
    (agree : ∀ i, Covers (placed 0 cs) i → other[i]? = w.buffer[i]?) :
    ({ w with buffer := other } : RecordWriter).Written cs := by
  cases h with
  | start buffer => exact .start other
  | laid laid => exact .laid (laid.of_agree agree)

/-- In a buffer of less than 4 GiB a writer takes each change that has a name and finds room. -/
theorem pushAll_fitting (small : w.buffer.size < UInt32.size) (offered : List Change) :
    (w.pushAll offered).2 = fitting w.buffer.size w.nextStart offered := by
  induction offered generalizing w with
  | nil => rfl
  | cons c rest ih =>
    have room : w.fits c.units.length = true ↔
        c.path ≠ "" ∧ w.nextStart + c.recordSize ≤ w.buffer.size := by
      rw [fits_iff small, ← c.named_iff, Change.Named, ne_eq, List.length_eq_zero_iff]
      rfl
    rw [fitting]
    by_cases fits : w.fits c.units.length = true
    · have taken := push?_eq w c
      rw [if_pos fits] at taken
      have size := size_of_push? taken
      rw [if_pos (room.mp fits), pushAll_taken taken, ih (by rw [size]; exact small), size]
      rfl
    · have refused := push?_eq w c
      rw [if_neg fits] at refused
      rw [if_neg (fun inside => fits (room.mpr inside)), pushAll_refused refused]
      exact ih small

/-- Whatever stands in a buffer and whichever changes its writer is offered: it takes those that
have a name and find room. The buffer decodes to these, in this order, and if it is cut off, to the
longest part of them from the front whose records end before the cut. Bytes that belong to none of
these records may change without being seen. -/
theorem pushAll_reads_back (buffer : Buffer) (small : buffer.size < UInt32.size)
    (offered : List Change) :
    let w := ((start buffer).pushAll offered).1
    let taken := ((start buffer).pushAll offered).2
    taken = fitting buffer.size 0 offered ∧
      decode w.buffer w.finish = taken.map Prod.fst ∧
      (∀ k, k ≤ w.finish →
        decode w.buffer k = (taken.takeWhile fun x => x.2 ≤ k).map Prod.fst) ∧
      ∀ other : Buffer, (∀ i, Covers taken i → other[i]? = w.buffer[i]?) →
        ∀ k, k ≤ w.finish → decode other k = decode w.buffer k := by
  intro w taken
  obtain ⟨written, places⟩ := (Written.start buffer).pushAll offered
  have written : w.Written (taken.map Prod.fst) := written
  have places : taken = placed 0 (taken.map Prod.fst) := places
  have cut : ∀ k, k ≤ w.finish →
      decode w.buffer k = (taken.takeWhile fun x => x.2 ≤ k).map Prod.fst := by
    intro k inside
    rw [written.decode_cut inside, ← places]
  refine ⟨pushAll_fitting small offered, written.decode_eq, cut, ?_⟩
  intro other agree k inside
  have unseen : ({ w with buffer := other } : RecordWriter).Written (taken.map Prod.fst) := by
    apply written.of_agree
    rw [← places]
    exact agree
  have decodes := unseen.decode_cut inside
  rw [← places] at decodes
  exact decodes.trans (cut k inside).symm

/-- A name beyond the basic plane, one that is refused for want of room, one without letters, and an
unknown action. -/
def fourOffers : List Change :=
  [⟨.added, "𝄞x"⟩, ⟨.modified, "no"⟩, ⟨.removed, ""⟩, ⟨.unknown, "é"⟩]

/-- The first record ends at 18, the second one, after two bytes that nobody has written, at 34. Cut
off within the second record, the buffer holds the first change only. -/
theorem pushAll_reads_back_fourOffers :
    (Array.replicate 35 (255 : UInt8)).size < UInt32.size ∧
      ((start (Array.replicate 35 255)).pushAll fourOffers).2 =
        [(⟨.added, "𝄞x"⟩, 18), (⟨.unknown, "é"⟩, 34)] ∧
      33 ≤ ((start (Array.replicate 35 255)).pushAll fourOffers).1.finish ∧
      decode ((start (Array.replicate 35 255)).pushAll fourOffers).1.buffer 33 =
        [⟨.added, "𝄞x"⟩] := by
  have small : (Array.replicate 35 (255 : UInt8)).size < UInt32.size := by decide
  have taken : ((start (Array.replicate 35 255)).pushAll fourOffers).2 =
      [(⟨.added, "𝄞x"⟩, 18), (⟨.unknown, "é"⟩, 34)] := by
    decide +kernel
  have finish : ((start (Array.replicate 35 255)).pushAll fourOffers).1.finish = 34 := by
    decide +kernel
  have inside : 33 ≤ ((start (Array.replicate 35 255)).pushAll fourOffers).1.finish := by
    rw [finish]
    decide
  obtain ⟨-, -, cut, -⟩ := pushAll_reads_back (Array.replicate 35 255) small fourOffers
  refine ⟨small, taken, inside, ?_⟩
  rw [cut 33 inside, taken]
  rfl

end RecordWriter

end DirWatch
