import DirWatch.Proofs.Record.Bytes
import DirWatch.Record.Writer

/-!
# How records lie in a buffer

`Record.Laid` describes a buffer with records for a list of changes, each linked to the next. The
reader finds exactly these changes, as far as their records end within the bytes that it may look at
(`Record.walk_of_laid`), and a writer whose buffer is laid out in this way keeps it so when it takes
one more change (`RecordWriter.Written.push`). Together: what a writer has taken is what its buffer
decodes to (`RecordWriter.Written.decode_eq`).
-/

namespace DirWatch

/-- The name of a change in UTF-16. -/
def Change.units (c : Change) : List UInt16 := Text.encodeUnits c.path.toList

/-- The size of the record of a change, without what aligns the next one. -/
def Change.recordSize (c : Change) : Nat := Record.sizeFor c.units.length

/-- A change that has a record: it has a name, and the length of the name is a number of 32 bits. -/
def Change.Storable (c : Change) : Prop := c.units ≠ [] ∧ 2 * c.units.length < UInt32.size

namespace Record

theorem le_alignUp (n : Nat) : n ≤ alignUp n := by
  unfold alignUp
  omega

theorem headerSize_le_recordSize (c : Change) : headerSize ≤ c.recordSize := Nat.le_add_right ..

/-! ## One record -/

/-- The bytes of the record of a change, with the distance to the next record. -/
def bytesOf (next : UInt32) (c : Change) : List UInt8 :=
  Buffer.wordBytes next ++ (Buffer.wordBytes c.action.code ++
    (Buffer.wordBytes (UInt32.ofNat (2 * c.units.length)) ++ c.units.flatMap Buffer.unitBytes))

@[simp] theorem length_bytesOf (next : UInt32) (c : Change) :
    (bytesOf next c).length = c.recordSize := by
  simp only [bytesOf, List.length_append, Buffer.length_wordBytes,
    Buffer.length_flatMap_unitBytes, Change.recordSize, sizeFor, headerSize]
  omega

/-- A writer writes a record as the last one. -/
theorem recordBytes_eq (c : Change) : RecordWriter.recordBytes c.action c.units = bytesOf 0 c := by
  simp only [RecordWriter.recordBytes, bytesOf, List.append_assoc]

variable {buffer : Buffer} {start limit : Nat} {next : UInt32} {c : Change}

/-- The fields of a record read back. -/
theorem fields_of_holds (here : buffer.Holds start (bytesOf next c)) :
    buffer.wordAt start = next ∧ buffer.wordAt (start + 4) = c.action.code ∧
      buffer.wordAt (start + 8) = UInt32.ofNat (2 * c.units.length) ∧
      buffer.unitsAt (start + headerSize) c.units.length = c.units := by
  obtain ⟨link, here⟩ := Buffer.holds_append.mp here
  obtain ⟨code, here⟩ := Buffer.holds_append.mp here
  obtain ⟨length, name⟩ := Buffer.holds_append.mp here
  simp only [Buffer.length_wordBytes, Nat.add_assoc, Nat.reduceAdd] at code length name
  exact ⟨link.wordAt, code.wordAt, length.wordAt, name.unitsAt⟩

/-- A record that ends within the limit is read. -/
theorem at?_of_holds (here : buffer.Holds start (bytesOf next c)) (storable : c.Storable)
    (apart : next = 0 ∨ c.recordSize ≤ next.toNat) (inside : start + c.recordSize ≤ limit) :
    at? buffer limit start = some ⟨start, next.toNat, c.action.code, c.units⟩ := by
  obtain ⟨link, code, length, name⟩ := fields_of_holds here
  have named : 0 < c.units.length := List.length_pos_iff.mpr storable.1
  have size : (UInt32.ofNat (2 * c.units.length)).toNat = 2 * c.units.length :=
    UInt32.toNat_ofNat_of_lt' storable.2
  have apart' : next.toNat = 0 ∨ c.recordSize ≤ next.toNat := by
    rcases apart with rfl | far
    · exact .inl rfl
    · exact .inr far
  simp only [Change.recordSize, sizeFor] at apart' inside
  simp only [at?, link, code, length, size]
  rw [if_neg (by omega), if_neg (by omega), if_neg (by omega), if_neg (by omega),
    show 2 * c.units.length / 2 = c.units.length by omega, name]

/-- A record that ends behind the limit is not read. -/
theorem at?_of_holds_short (here : buffer.Holds start (bytesOf next c)) (storable : c.Storable)
    (short : limit < start + c.recordSize) : at? buffer limit start = none := by
  obtain ⟨-, -, length, -⟩ := fields_of_holds here
  have size : (UInt32.ofNat (2 * c.units.length)).toNat = 2 * c.units.length :=
    UInt32.toNat_ofNat_of_lt' storable.2
  simp only [Change.recordSize, sizeFor] at short
  simp only [at?, length, size]
  split
  · rfl
  · split
    · rfl
    · rw [if_pos (by omega)]

/-- A record reads as the change that it was written for. -/
theorem change_of_units (start next : Nat) (c : Change) :
    change ⟨start, next, c.action.code, c.units⟩ = c := by
  simp only [change, name, Change.units, Action.ofCode_code, Text.decodeUnits_encodeUnits,
    String.ofList_toList]

/-! ## Many records -/

/-- The buffer has records for these changes from `start` on: the last one starts at `last`, and it
ends at `finish`. -/
inductive Laid (buffer : Buffer) : (start last finish : Nat) → List Change → Prop where
  | single {start : Nat} {c : Change} (storable : c.Storable)
      (here : buffer.Holds start (bytesOf 0 c)) :
      Laid buffer start start (start + c.recordSize) [c]
  | link {start last finish : Nat} {c : Change} {rest : List Change} (storable : c.Storable)
      (short : alignUp (start + c.recordSize) - start < UInt32.size)
      (here : buffer.Holds start
        (bytesOf (UInt32.ofNat (alignUp (start + c.recordSize) - start)) c))
      (behind : Laid buffer (alignUp (start + c.recordSize)) last finish rest) :
      Laid buffer start last finish (c :: rest)

theorem Laid.start_le_last {last finish : Nat} {cs : List Change}
    (h : Laid buffer start last finish cs) : start ≤ last := by
  induction h with
  | single => exact Nat.le_refl _
  | @link start _ _ c _ _ _ _ _ ih =>
    have := le_alignUp (start + c.recordSize)
    omega

theorem Laid.last_lt_finish {last finish : Nat} {cs : List Change}
    (h : Laid buffer start last finish cs) : last < finish := by
  induction h with
  | @single start c =>
    have := headerSize_le_recordSize c
    simp only [headerSize] at this
    omega
  | link _ _ _ _ ih => exact ih

theorem Laid.finish_le_size {last finish : Nat} {cs : List Change}
    (h : Laid buffer start last finish cs) : finish ≤ buffer.size := by
  induction h with
  | @single start c storable here =>
    have inside := here.le_size (by simp [bytesOf, Buffer.wordBytes])
    rwa [length_bytesOf] at inside
  | link _ _ _ _ ih => exact ih

/-- One more change behind the others: its record is written where the next one may start, and the
last record is told. -/
theorem Laid.snoc {last finish : Nat} {cs : List Change} (h : Laid buffer start last finish cs)
    {d : Change} (storable : d.Storable) (inside : alignUp finish + d.recordSize ≤ buffer.size)
    (short : alignUp finish - last < UInt32.size) :
    Laid ((buffer.write last (Buffer.wordBytes (UInt32.ofNat (alignUp finish - last)))).write
        (alignUp finish) (bytesOf 0 d))
      start (alignUp finish) (alignUp finish + d.recordSize) (cs ++ [d]) := by
  induction h with
  | @single start c old here =>
    have behind := le_alignUp (start + c.recordSize)
    have header := headerSize_le_recordSize c
    simp only [headerSize] at header
    refine .link old short ?_ (.single storable (Buffer.holds_write ?_))
    · -- the distance is new, and the fields behind it are where they were
      obtain ⟨-, fields⟩ := Buffer.holds_append.mp here
      have linked : (buffer.write start (Buffer.wordBytes
          (UInt32.ofNat (alignUp (start + c.recordSize) - start)))).Holds start
            (bytesOf (UInt32.ofNat (alignUp (start + c.recordSize) - start)) c) := by
        refine Buffer.holds_append.mpr ⟨Buffer.holds_write ?_, fields.write_apart (.inl ?_)⟩
        · rw [Buffer.length_wordBytes]
          omega
        · exact Nat.le_refl _
      refine linked.write_apart (.inr ?_)
      rw [length_bytesOf]
      exact behind
    · rw [Buffer.size_write, length_bytesOf]
      exact inside
  | @link start last finish c rest old near here behind ih =>
    have := le_alignUp (start + c.recordSize)
    have := behind.start_le_last
    have := behind.last_lt_finish
    have := le_alignUp finish
    refine .link old near ?_ (ih inside short)
    refine (here.write_apart (.inr ?_)).write_apart (.inr ?_)
    · rw [length_bytesOf]
      omega
    · rw [length_bytesOf]
      omega

/-! ## Reading records -/

/-- The changes at the front whose records, laid from `start` on, all end within a limit. -/
def within (limit start : Nat) : List Change → List Change
  | [] => []
  | c :: rest =>
    if start + c.recordSize ≤ limit then c :: within limit (alignUp (start + c.recordSize)) rest
    else []

/-- The reader finds the changes whose records end within the bytes that it looks at. -/
theorem walk_of_laid {last finish : Nat} {cs : List Change}
    (h : Laid buffer start last finish cs) (limit : Nat) :
    (walk buffer limit start).map change = within limit start cs := by
  induction h with
  | @single start c storable here =>
    rw [within, within]
    split
    · next inside =>
      have found := at?_of_holds here storable (.inl rfl) inside
      rw [walk, found]
      simp [change_of_units]
    · next outside =>
      have none_found : at? buffer limit start = none :=
        at?_of_holds_short here storable (by omega)
      rw [walk, none_found]
      rfl
  | @link start last finish c rest storable short here behind ih =>
    have header := headerSize_le_recordSize c
    have aligned := le_alignUp (start + c.recordSize)
    simp only [headerSize] at header
    have distance : (UInt32.ofNat (alignUp (start + c.recordSize) - start)).toNat =
        alignUp (start + c.recordSize) - start := UInt32.toNat_ofNat_of_lt' short
    rw [within]
    split
    · next inside =>
      have found := at?_of_holds here storable (.inr (by omega)) inside
      -- the record tells how far it is to the next one, and there the walk goes on
      rw [distance] at found
      rw [walk, found]
      have more : alignUp (start + c.recordSize) - start ≠ 0 := by omega
      have next : start + (alignUp (start + c.recordSize) - start) =
          alignUp (start + c.recordSize) := by omega
      simp only [more, if_false, List.map_cons, change_of_units, next, ih]
    · next outside =>
      have none_found : at? buffer limit start = none :=
        at?_of_holds_short here storable (by omega)
      rw [walk, none_found]
      rfl

/-- All records end within the limit, if the last one does. -/
theorem within_of_laid {last finish : Nat} {cs : List Change}
    (h : Laid buffer start last finish cs) (inside : finish ≤ limit) :
    within limit start cs = cs := by
  induction h with
  | single =>
    rw [within, if_pos inside, within]
  | @link start _ _ c _ _ _ _ behind ih =>
    have := le_alignUp (start + c.recordSize)
    have := behind.start_le_last
    have := behind.last_lt_finish
    rw [within, if_pos (by omega), ih inside]

end Record

namespace RecordWriter

open Record

/-- The writer has taken these changes, in this order. -/
inductive Written : RecordWriter → List Change → Prop where
  | start (buffer : Buffer) : Written (.start buffer) []
  | laid {buffer : Buffer} {last finish : Nat} {cs : List Change}
      (h : Laid buffer 0 last finish cs) : Written ⟨buffer, some last, finish⟩ cs

variable {w : RecordWriter} {cs : List Change}

theorem Written.finish_le_size (h : w.Written cs) : w.finish ≤ w.buffer.size := by
  cases h with
  | start => exact Nat.zero_le _
  | laid h => exact h.finish_le_size

/-- What a writer has taken is what its buffer decodes to. -/
theorem Written.decode_eq (h : w.Written cs) : Record.decode w.buffer w.finish = cs := by
  rw [decode, all, Nat.min_eq_left h.finish_le_size]
  cases h with
  | start buffer =>
    have none_found : at? buffer 0 0 = none := by simp [at?, headerSize]
    rw [RecordWriter.start, walk, none_found]
    rfl
  | laid h => rw [walk_of_laid h, within_of_laid h (Nat.le_refl _)]

theorem Written.isEmpty_iff (h : w.Written cs) : w.isEmpty = true ↔ cs = [] := by
  cases h with
  | start buffer => exact ⟨fun _ => rfl, fun _ => rfl⟩
  | laid h => cases h <;> simp [isEmpty]

/-! ## One more change -/

/-- In a buffer of less than 4 GiB a record has room exactly if it ends within the buffer. -/
theorem fits_iff (small : w.buffer.size < UInt32.size) (units : Nat) :
    w.fits units = true ↔ units ≠ 0 ∧ w.nextStart + sizeFor units ≤ w.buffer.size := by
  simp only [fits, Bool.and_eq_true, decide_eq_true_eq]
  constructor
  · rintro ⟨⟨⟨named, inside⟩, -⟩, -⟩
    exact ⟨named, inside⟩
  · rintro ⟨named, inside⟩
    have length : 2 * units ≤ sizeFor units := Nat.le_add_left ..
    exact ⟨⟨⟨named, inside⟩, by omega⟩, by omega⟩

theorem nextStart_start (buffer : Buffer) : (start buffer).nextStart = 0 := rfl

theorem nextStart_laid (buffer : Buffer) (last finish : Nat) :
    nextStart ⟨buffer, some last, finish⟩ = alignUp finish := rfl

theorem linkTo_start (buffer : Buffer) (n : Nat) : (start buffer).linkTo n = buffer := rfl

theorem linkTo_laid (buffer : Buffer) (last finish n : Nat) :
    linkTo ⟨buffer, some last, finish⟩ n =
      buffer.write last (Buffer.wordBytes (UInt32.ofNat (n - last))) := rfl

/-- What taking a change does to a writer. -/
theorem push?_eq (w : RecordWriter) (c : Change) :
    w.push? c.action c.path =
      if w.fits c.units.length then
        some ⟨(w.linkTo w.nextStart).write w.nextStart (bytesOf 0 c), some w.nextStart,
          w.nextStart + c.recordSize⟩
      else none := by
  rw [← recordBytes_eq]
  rfl

theorem size_linkTo (w : RecordWriter) (n : Nat) : (w.linkTo n).size = w.buffer.size := by
  unfold linkTo
  split
  · rfl
  · exact Buffer.size_write ..

/-- A writer keeps the size of its buffer. -/
theorem size_of_push? {c : Change} {w' : RecordWriter} (taken : w.push? c.action c.path = some w') :
    w'.buffer.size = w.buffer.size := by
  rw [push?_eq] at taken
  split at taken
  · obtain rfl := Option.some.inj taken
    rw [Buffer.size_write, size_linkTo]
  · simp at taken

/-- A writer that takes a change has taken it behind the others. -/
theorem Written.push (h : w.Written cs) {c : Change} {w' : RecordWriter}
    (taken : w.push? c.action c.path = some w') :
    w'.Written (cs ++ [c]) ∧ w'.nextStart = alignUp (w.nextStart + c.recordSize) := by
  rw [push?_eq] at taken
  split at taken
  · next room =>
    simp only [fits, Bool.and_eq_true, decide_eq_true_eq] at room
    obtain ⟨⟨⟨named, inside⟩, short⟩, near⟩ := room
    have storable : c.Storable := ⟨List.ne_nil_of_length_pos (Nat.pos_of_ne_zero named), short⟩
    obtain rfl := Option.some.inj taken
    cases h with
    | start buffer =>
      rw [nextStart_start] at inside
      rw [nextStart_start, linkTo_start]
      have here : (buffer.write 0 (bytesOf 0 c)).Holds 0 (bytesOf 0 c) := by
        refine Buffer.holds_write ?_
        rw [length_bytesOf]
        exact inside
      have laid : Laid (buffer.write 0 (bytesOf 0 c)) 0 0 (0 + c.recordSize) [c] :=
        .single storable here
      exact ⟨.laid laid, rfl⟩
    | @laid buffer last finish cs h =>
      rw [nextStart_laid] at inside near
      simp only [Option.getD_some] at near
      rw [nextStart_laid, linkTo_laid]
      exact ⟨.laid (h.snoc storable inside near), rfl⟩
  · simp at taken

end RecordWriter

end DirWatch
