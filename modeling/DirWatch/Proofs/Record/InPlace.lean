import DirWatch.Proofs.Record.RoundTrip

/-!
# Records are written in place

`RecordWriter.offer` writes a record field by field into the buffer that it has, and what has been
written stays written when it has to give up. From an empty writer on, whatever has been offered
before, it never gives up in the middle: every slice that it writes lies within the buffer and every
number fits its field, so that it does what `RecordWriter.push?` says (`RecordWriter.offer_eq`). A
change that it refuses leaves the writer as it was; one that it takes changes the bytes of its own
record and the distance in the record before it, and no others (`RecordWriter.offers_in_place`).
-/

namespace DirWatch

namespace Buffer

/-- Bytes written one part behind the other are written as a whole. -/
theorem write_append (buffer : Buffer) (offset : Nat) (bytes more : List UInt8) :
    buffer.write offset (bytes ++ more) =
      (buffer.write offset bytes).write (offset + bytes.length) more := by
  induction bytes generalizing buffer offset with
  | nil => rfl
  | cons b bytes ih =>
    rw [List.cons_append, write, write, ih, List.length_cons]
    congr 1
    omega

end Buffer

namespace Record

variable {buffer : Buffer} {start last finish : Nat} {cs : List Change}

/-- The last record ends where the records end. -/
theorem Laid.last_record (h : Laid buffer start last finish cs) :
    ∃ c, (placed start cs).getLast? = some (c, finish) ∧ last + c.recordSize = finish := by
  induction h with
  | @single start c => exact ⟨c, rfl, rfl⟩
  | @link start last finish c rest storable short here behind ih =>
    obtain ⟨d, found, ends⟩ := ih
    refine ⟨d, ?_, ends⟩
    rw [placed, List.getLast?_cons, found]
    rfl

theorem dvd_alignUp (n : Nat) : 4 ∣ alignUp n := Nat.dvd_mul_left 4 _

theorem alignUp_lt (n : Nat) : alignUp n < n + 4 := by
  unfold alignUp
  omega

end Record

namespace RecordWriter

open Record

/-! ## Field by field -/

/-- Why no record has been added. -/
inductive Halt where
  /-- There is no name. -/
  | nameless
  /-- The record would end behind the buffer. -/
  | full
  /-- The length of the name is no number of 32 bits. -/
  | longName
  /-- The distance from the record before is no number of 32 bits. -/
  | farAway
  /-- Bytes were to be written that the buffer does not have. -/
  | outside
  deriving DecidableEq

/-- Steps that change a writer, up to one that halts. -/
abbrev Steps := ExceptT Halt (StateM RecordWriter)

namespace Steps

/-- How steps end, and the writer that they leave. -/
def outcome {α : Type} (steps : Steps α) (w : RecordWriter) : Except Halt α × RecordWriter :=
  steps.run.run w

theorem outcome_bind {α β : Type} {steps : Steps α} {w w' : RecordWriter} {a : α}
    (done : steps.outcome w = (.ok a, w')) (next : α → Steps β) :
    (steps >>= next).outcome w = (next a).outcome w' := by
  simp only [outcome, ExceptT.run, bind, ExceptT.bind, ExceptT.mk, StateT.run, StateT.bind]
    at done ⊢
  rw [done]
  rfl

theorem outcome_modify (change : RecordWriter → RecordWriter) (w : RecordWriter) :
    (modify change : Steps Unit).outcome w = (.ok (), change w) := rfl

theorem outcome_get (w : RecordWriter) : (get : Steps RecordWriter).outcome w = (.ok w, w) := rfl

end Steps

/-- Replaces the bytes of a slice of the buffer. -/
def put (offset : Nat) (bytes : List UInt8) : Steps Unit := do
  let w ← get
  if offset + bytes.length ≤ w.buffer.size then
    set { w with buffer := w.buffer.write offset bytes }
  else throw .outside

/-- A number as one of 32 bits. -/
def word (n : Nat) (otherwise : Halt) : Steps UInt32 :=
  if n < UInt32.size then pure (UInt32.ofNat n) else throw otherwise

/-- Replaces numbers of 16 bits, one by one. -/
def putUnits (offset : Nat) : List UInt16 → Steps Unit
  | [] => pure ()
  | u :: units => do
    put offset (Buffer.unitBytes u)
    putUnits (offset + 2) units

/-- Tells the last record, if there is one, where the next one starts. -/
def putLink (start : Nat) : Steps Unit := do
  let w ← get
  match w.last with
  | none => pure ()
  | some last =>
    let distance ← word (start - last) .farAway
    put last (Buffer.wordBytes distance)

/-- Fills in the fields of a record. -/
def putRecord (start : Nat) (c : Change) (nameSize : UInt32) : Steps Unit := do
  put start (Buffer.wordBytes 0)
  put (start + 4) (Buffer.wordBytes c.action.code)
  put (start + 8) (Buffer.wordBytes nameSize)
  putUnits (start + 12) c.units

/-- Adds the record of a change, or halts at what stands against it. -/
def offer (c : Change) : Steps Unit := do
  let w ← get
  let start := w.nextStart
  if c.units.length = 0 then throw .nameless
  else if w.buffer.size < start + c.recordSize then throw .full
  else
    let nameSize ← word (2 * c.units.length) .longName
    putLink start
    putRecord start c nameSize
    modify fun w => { w with last := some start, finish := start + c.recordSize }

/-- A writer after changes have been offered to it, one after another. -/
def offered (w : RecordWriter) : List Change → RecordWriter
  | [] => w
  | c :: rest => offered ((offer c).outcome w).2 rest

/-! ## No step halts in the middle -/

variable {w : RecordWriter} {cs : List Change}

theorem outcome_put {offset : Nat} {bytes : List UInt8}
    (inside : offset + bytes.length ≤ w.buffer.size) :
    (put offset bytes).outcome w = (.ok (), { w with buffer := w.buffer.write offset bytes }) := by
  show (if offset + bytes.length ≤ w.buffer.size then
    (set { w with buffer := w.buffer.write offset bytes } : Steps Unit)
    else throw .outside).outcome w = _
  rw [if_pos inside]
  rfl

theorem outcome_word {n : Nat} (small : n < UInt32.size) (otherwise : Halt) :
    (word n otherwise).outcome w = (.ok (UInt32.ofNat n), w) := by
  rw [word, if_pos small]
  rfl

theorem outcome_putUnits {offset : Nat} {units : List UInt16}
    (inside : offset + 2 * units.length ≤ w.buffer.size) :
    (putUnits offset units).outcome w =
      (.ok (), { w with buffer := w.buffer.write offset (units.flatMap Buffer.unitBytes) }) := by
  induction units generalizing w offset with
  | nil => rfl
  | cons u units ih =>
    rw [List.length_cons] at inside
    have here : offset + (Buffer.unitBytes u).length ≤ w.buffer.size := by
      rw [Buffer.length_unitBytes]
      omega
    rw [putUnits, Steps.outcome_bind (outcome_put here), ih (by rw [Buffer.size_write]; omega),
      List.flatMap_cons, Buffer.write_append, Buffer.length_unitBytes]

/-- The last record has a header, and the next one starts behind it. -/
theorem Written.link_before (h : w.Written cs) {place : Nat} (found : w.last = some place) :
    place + headerSize ≤ w.finish ∧ w.finish ≤ w.nextStart := by
  cases h with
  | start buffer => exact absurd found (Option.some_ne_none place).symm
  | @laid buffer last finish cs laid =>
    obtain rfl : last = place := Option.some.inj found
    obtain ⟨c, -, ends⟩ := laid.last_record
    have header := headerSize_le_recordSize c
    refine ⟨?_, le_alignUp finish⟩
    show last + headerSize ≤ finish
    omega

theorem outcome_putLink (h : w.Written cs) (small : w.buffer.size < UInt32.size)
    (inside : w.nextStart ≤ w.buffer.size) :
    (putLink w.nextStart).outcome w = (.ok (), { w with buffer := w.linkTo w.nextStart }) := by
  rw [putLink, Steps.outcome_bind (Steps.outcome_get w)]
  cases h with
  | start buffer => rfl
  | @laid buffer last finish cs laid =>
    obtain ⟨header, behind⟩ := (Written.laid laid).link_before rfl
    simp only [headerSize, nextStart_laid] at header behind inside small ⊢
    have near : alignUp finish - last < UInt32.size := by omega
    have link : last + (Buffer.wordBytes (UInt32.ofNat (alignUp finish - last))).length ≤
        buffer.size := by
      rw [Buffer.length_wordBytes]
      omega
    rw [Steps.outcome_bind (outcome_word near .farAway), outcome_put link]
    rfl

/-- The bytes of a record, field by field. -/
theorem write_bytesOf (buffer : Buffer) (start : Nat) (next : UInt32) (c : Change) :
    buffer.write start (bytesOf next c) =
      (((buffer.write start (Buffer.wordBytes next)).write (start + 4)
        (Buffer.wordBytes c.action.code)).write (start + 8)
          (Buffer.wordBytes (UInt32.ofNat (2 * c.units.length)))).write (start + 12)
            (c.units.flatMap Buffer.unitBytes) := by
  simp only [bytesOf, Buffer.write_append, Buffer.length_wordBytes, Nat.add_assoc, Nat.reduceAdd]

theorem outcome_putRecord {start : Nat} {c : Change}
    (inside : start + c.recordSize ≤ w.buffer.size) :
    (putRecord start c (UInt32.ofNat (2 * c.units.length))).outcome w =
      (.ok (), { w with buffer := w.buffer.write start (bytesOf 0 c) }) := by
  simp only [Change.recordSize, sizeFor, headerSize] at inside
  have field : ∀ (w' : RecordWriter) (offset : Nat) (word : UInt32),
      w'.buffer.size = w.buffer.size → offset + 4 ≤ start + 12 →
      (put offset (Buffer.wordBytes word)).outcome w' =
        (.ok (), { w' with buffer := w'.buffer.write offset (Buffer.wordBytes word) }) := by
    intro w' offset word size header
    apply outcome_put
    rw [Buffer.length_wordBytes, size]
    omega
  rw [putRecord, Steps.outcome_bind (field _ _ _ rfl (by omega)),
    Steps.outcome_bind (field _ _ _ (by simp only [Buffer.size_write]) (by omega)),
    Steps.outcome_bind (field _ _ _ (by simp only [Buffer.size_write]) (by omega)),
    outcome_putUnits (by simp only [Buffer.size_write]; omega), write_bytesOf]

/-- Offering a change to a writer does what the writer says of it: the record is added, or else the
change has no name or no room, and nothing has been written. -/
theorem offer_eq (h : w.Written cs) (small : w.buffer.size < UInt32.size) (c : Change) :
    (offer c).outcome w =
      match w.push? c.action c.path with
      | some w' => (.ok (), w')
      | none => (.error (if c.path = "" then .nameless else .full), w) := by
  have nameless_iff : c.units.length = 0 ↔ c.path = "" := by
    rw [List.length_eq_zero_iff, ← Decidable.not_iff_not]
    exact c.named_iff
  rw [push?_eq, offer, Steps.outcome_bind (Steps.outcome_get w)]
  by_cases nameless : c.units.length = 0
  · have refused : ¬ w.fits c.units.length = true := by
      rw [fits_iff small]
      exact fun room => room.1 nameless
    rw [if_pos nameless, if_neg refused, if_pos (nameless_iff.mp nameless)]
    rfl
  · by_cases full : w.buffer.size < w.nextStart + c.recordSize
    · have refused : ¬ w.fits c.units.length = true := by
        rw [fits_iff small]
        exact fun room => Nat.not_le.mpr full room.2
      rw [if_neg nameless, if_pos full, if_neg refused,
        if_neg (fun empty => nameless (nameless_iff.mpr empty))]
      rfl
    · have room := Nat.not_lt.mp full
      have taken : w.fits c.units.length = true := (fits_iff small _).mpr ⟨nameless, room⟩
      have size : c.recordSize = 12 + 2 * c.units.length := rfl
      have short : 2 * c.units.length < UInt32.size := by omega
      have record : w.nextStart + c.recordSize ≤ (w.linkTo w.nextStart).size := by
        rw [size_linkTo]
        exact room
      rw [if_neg nameless, if_neg full, if_pos taken,
        Steps.outcome_bind (outcome_word short .longName),
        Steps.outcome_bind (outcome_putLink h small (by omega)),
        Steps.outcome_bind (outcome_putRecord record), Steps.outcome_modify]

theorem offered_eq (h : w.Written cs) (small : w.buffer.size < UInt32.size)
    (history : List Change) : w.offered history = (w.pushAll history).1 := by
  induction history generalizing w cs with
  | nil => rfl
  | cons c rest ih =>
    rw [offered, offer_eq h small]
    cases taken : w.push? c.action c.path with
    | none =>
      rw [pushAll_refused taken]
      exact ih h small
    | some w' =>
      rw [pushAll_taken taken]
      exact ih (h.push taken).1 (by rw [size_of_push? taken]; exact small)

/-! ## What is written, and where -/

/-- The byte at this offset is one that adding a change writes: it belongs to the distance in the
last record, or to the new record. -/
def Writes (w : RecordWriter) (c : Change) (i : Nat) : Prop :=
  (∃ last, w.last = some last ∧ last ≤ i ∧ i < last + 4) ∨
    (w.nextStart ≤ i ∧ i < w.nextStart + c.recordSize)

/-- A writer with one more change: its record is there, the record before leads to it, and all other
bytes are as they were. -/
structure Extends (w : RecordWriter) (c : Change) (w' : RecordWriter) : Prop where
  last : w'.last = some w.nextStart
  finish : w'.finish = w.nextStart + c.recordSize
  size : w'.buffer.size = w.buffer.size
  record : w'.buffer.Holds w.nextStart (bytesOf 0 c)
  distance : ∀ last, w.last = some last →
    w'.buffer.Holds last (Buffer.wordBytes (UInt32.ofNat (w.nextStart - last)))
  others : ∀ i, ¬ w.Writes c i → w'.buffer[i]? = w.buffer[i]?

/-- Where a writer stands that has taken these changes, given with the offsets behind their records:
at the front or else at the first multiple of four behind the last of them. -/
structure StandsBehind (w : RecordWriter) (taken : List (Change × Nat)) : Prop where
  finish : w.finish = (taken.getLast?.map Prod.snd).getD 0
  last : w.last = taken.getLast?.map fun x => x.2 - x.1.recordSize
  front : taken = [] → w.nextStart = 0
  aligned : taken ≠ [] → 4 ∣ w.nextStart ∧ w.finish ≤ w.nextStart ∧ w.nextStart < w.finish + 4
  header : ∀ last, w.last = some last → last + headerSize ≤ w.finish
  inside : w.finish ≤ w.buffer.size

theorem Written.standsBehind (h : w.Written cs) : w.StandsBehind (placed 0 cs) := by
  have header := fun place (found : w.last = some place) => (h.link_before found).1
  have inside := h.finish_le_size
  cases h with
  | start buffer =>
    refine ⟨rfl, rfl, fun _ => rfl, ?_, header, inside⟩
    intro some_taken
    exact absurd rfl some_taken
  | @laid buffer last finish cs laid =>
    obtain ⟨c, found, ends⟩ := laid.last_record
    refine ⟨?_, ?_, ?_, ?_, header, inside⟩
    · rw [found]
      rfl
    · show some last = _
      rw [found, ← ends]
      simp
    · intro none_taken
      rw [none_taken] at found
      exact absurd found (by simp)
    · intro _
      exact ⟨dvd_alignUp finish, le_alignUp finish, alignUp_lt finish⟩

theorem linkTo_of_last {place : Nat} (found : w.last = some place) (next : Nat) :
    w.linkTo next = w.buffer.write place (Buffer.wordBytes (UInt32.ofNat (next - place))) := by
  rw [linkTo, found]

/-- The last record tells where the next one starts. -/
theorem Written.holds_linkTo (h : w.Written cs) {place : Nat} (found : w.last = some place)
    (next : Nat) :
    (w.linkTo next).Holds place (Buffer.wordBytes (UInt32.ofNat (next - place))) := by
  have header := (h.link_before found).1
  have within := h.finish_le_size
  rw [headerSize] at header
  rw [linkTo_of_last found]
  apply Buffer.holds_write
  rw [Buffer.length_wordBytes]
  omega

/-- Telling it changes the distance in the last record and nothing else. -/
theorem getElem?_linkTo {next i : Nat}
    (apart : ∀ place, w.last = some place → i < place ∨ place + 4 ≤ i) :
    (w.linkTo next)[i]? = w.buffer[i]? := by
  cases found : w.last with
  | none => rw [linkTo, found]
  | some place =>
    rw [linkTo_of_last found, Buffer.getElem?_write_apart]
    rw [Buffer.length_wordBytes]
    exact apart place found

/-- What a writer that takes a change writes. -/
theorem Written.extends (h : w.Written cs) {c : Change} {w' : RecordWriter}
    (taken : w.push? c.action c.path = some w') : w.Extends c w' := by
  have size := size_of_push? taken
  rw [push?_eq] at taken
  split at taken
  · next room =>
    simp only [fits, Bool.and_eq_true, decide_eq_true_eq] at room
    obtain ⟨⟨⟨-, room⟩, -⟩, -⟩ := room
    have inside : w.nextStart + (bytesOf 0 c).length ≤ (w.linkTo w.nextStart).size := by
      rw [length_bytesOf, size_linkTo]
      exact room
    obtain ⟨buffer', last', finish'⟩ := w'
    simp only [Option.some.injEq, RecordWriter.mk.injEq] at taken
    obtain ⟨rfl, rfl, rfl⟩ := taken
    refine ⟨rfl, rfl, size, ?_, ?_, ?_⟩
    · dsimp only
      exact Buffer.holds_write inside
    · intro place found
      dsimp only
      -- the new record lies behind the header of the last one
      obtain ⟨header, behind⟩ := h.link_before found
      rw [headerSize] at header
      refine Buffer.Holds.write_apart (h.holds_linkTo found _) (.inr ?_)
      rw [Buffer.length_wordBytes]
      omega
    · intro i untouched
      dsimp only
      simp only [Writes, not_or, not_exists, not_and, Nat.not_lt] at untouched
      obtain ⟨off_link, off_record⟩ := untouched
      have apart : i < w.nextStart ∨ w.nextStart + (bytesOf 0 c).length ≤ i := by
        rw [length_bytesOf]
        omega
      rw [Buffer.getElem?_write_apart apart, getElem?_linkTo]
      intro place found
      have off := off_link place found
      omega
  · simp at taken

/-- A writer takes what fits. -/
theorem isSome_push? (w : RecordWriter) (c : Change) :
    (w.push? c.action c.path).isSome = w.fits c.units.length := by
  rw [push?_eq]
  split
  · next room => rw [room, Option.isSome_some]
  · next full => rw [Bool.eq_false_iff.mpr full, Option.isSome_none]

/-- Offers leave the size of the buffer as it is. -/
theorem size_pushAll (w : RecordWriter) (history : List Change) :
    (w.pushAll history).1.buffer.size = w.buffer.size := by
  induction history generalizing w with
  | nil => rfl
  | cons c rest ih =>
    cases taken : w.push? c.action c.path with
    | none => rw [pushAll_refused taken, ih]
    | some w' => rw [pushAll_taken taken, ih, size_of_push? taken]

/-- In a buffer of less than 4 GiB, after any changes that have been offered: the next one is taken
exactly if it has a name and its record, put at the next multiple of four, ends within the buffer.
Then its record and the distance in the record before are written, and no other byte. Otherwise the
writer stays as it was. No other end is possible: no slice that is written lies outside the buffer,
and no number is too large for its field. -/
theorem offers_in_place (buffer : Buffer) (small : buffer.size < UInt32.size)
    (history : List Change) (c : Change) :
    let w := (start buffer).offered history
    let result := (offer c).outcome w
    w = ((start buffer).pushAll history).1 ∧ w.buffer.size = buffer.size ∧
      w.StandsBehind ((start buffer).pushAll history).2 ∧
      (result.1 = .ok () ↔ c.path ≠ "" ∧ w.nextStart + 12 + 2 * c.units.length ≤ buffer.size) ∧
      (result.1 = .ok () → w.push? c.action c.path = some result.2 ∧ w.Extends c result.2) ∧
      (result.1 ≠ .ok () → w.push? c.action c.path = none ∧ result.2 = w ∧
        (result.1 = .error .nameless ∨ result.1 = .error .full)) := by
  intro w result
  obtain ⟨written, places⟩ := (Written.start buffer).pushAll history
  have same : w = ((start buffer).pushAll history).1 :=
    offered_eq (Written.start buffer) small history
  rw [← same] at written
  have stands := written.standsBehind
  rw [List.nil_append] at written stands
  rw [nextStart_start] at places
  rw [← places] at stands
  have size : w.buffer.size = buffer.size := by
    rw [same, size_pushAll]
    rfl
  have small : w.buffer.size < UInt32.size := by rwa [size]
  have ends : result = _ := offer_eq written small c
  have room : w.fits c.units.length = true ↔
      c.path ≠ "" ∧ w.nextStart + 12 + 2 * c.units.length ≤ buffer.size := by
    rw [fits_iff small, ← size, ← c.named_iff, Change.Named, ne_eq, List.length_eq_zero_iff,
      sizeFor, headerSize, Nat.add_assoc]
  refine ⟨same, size, stands, ?_⟩
  rw [← room, ← isSome_push?]
  cases taken : w.push? c.action c.path with
  | none =>
    rw [taken] at ends
    rw [ends, Option.isSome_none]
    refine ⟨by simp, by simp, fun _ => ⟨rfl, rfl, ?_⟩⟩
    by_cases nameless : c.path = ""
    · exact .inl (by rw [if_pos nameless])
    · exact .inr (by rw [if_neg nameless])
  | some w' =>
    rw [taken] at ends
    rw [ends, Option.isSome_some]
    exact ⟨by simp, fun _ => ⟨rfl, written.extends taken⟩, fun refused => absurd rfl refused⟩

/-- Bytes for a record of 18 bytes and one of 14, with two between them. -/
def thirtyFive : Buffer := Array.replicate 35 255

/-- The first record ends at 18, and the second one, from 20 on, at 34: the bytes between them stay
as they were. A third one would start at 36 and is refused. -/
theorem offers_in_place_thirtyFive :
    thirtyFive.size < UInt32.size ∧
      ((offer ⟨.removed, "d"⟩).outcome ((start thirtyFive).offered [⟨.added, "abc"⟩])).1 = .ok () ∧
      ((offer ⟨.removed, "d"⟩).outcome
        ((start thirtyFive).offered [⟨.added, "abc"⟩])).2.buffer[18]? = some 255 ∧
      ((offer ⟨.modified, "e"⟩).outcome
        ((start thirtyFive).offered [⟨.added, "abc"⟩, ⟨.removed, "d"⟩])).2 =
          (start thirtyFive).offered [⟨.added, "abc"⟩, ⟨.removed, "d"⟩] := by
  have small : thirtyFive.size < UInt32.size := by decide
  obtain ⟨same, -, -, room, taken, -⟩ :=
    offers_in_place thirtyFive small [⟨.added, "abc"⟩] ⟨.removed, "d"⟩
  obtain ⟨same', -, -, room', -, refused⟩ :=
    offers_in_place thirtyFive small [⟨.added, "abc"⟩, ⟨.removed, "d"⟩] ⟨.modified, "e"⟩
  have second : ((start thirtyFive).pushAll [⟨.added, "abc"⟩]).1.nextStart = 20 := by decide +kernel
  have first : ((start thirtyFive).pushAll [⟨.added, "abc"⟩]).1.last = some 0 := by decide +kernel
  have third : ((start thirtyFive).pushAll
      [⟨.added, "abc"⟩, ⟨.removed, "d"⟩]).1.nextStart = 36 := by decide +kernel
  have between : ((start thirtyFive).pushAll [⟨.added, "abc"⟩]).1.buffer[18]? = some 255 := by
    decide +kernel
  have done := room.mpr ⟨by decide, by rw [same, second]; decide⟩
  refine ⟨small, done, ?_, ?_⟩
  · have others := (taken done).2.others 18
    rw [same] at others ⊢
    rw [others ?_, between]
    simp [Writes, first, second]
  · refine (refused ?_).2.1
    intro fits
    have inside := (room'.mp fits).2
    rw [same', third] at inside
    exact absurd inside (by decide)

end RecordWriter

end DirWatch
