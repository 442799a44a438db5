import DirWatch.Pattern.Filtering
import DirWatch.Proofs.Record.Chains

/-!
# A reader with offsets of 64 bits

`Record.Reader` goes through a buffer one record at a time. It forms its offsets in 64 bits and asks
of every sum whether it fits. In a buffer of less than 2⁶³ bytes all of them do, so that it makes no
difference what becomes of a sum that does not (`Record.Reader.Ahead.step`). The reader answers the
records of the walk and then nothing any more (`Record.Reader.answer_eq`).
-/

namespace DirWatch

namespace Record

/-- The sum of two numbers, if it fits into 64 bits. -/
def checkedAdd (a b : UInt64) : Option UInt64 :=
  if a.toNat + b.toNat < UInt64.size then some (a + b) else none

/-- A way to add that is right as long as the sum fits into 64 bits. -/
def AddsWithin (add : UInt64 → UInt64 → Option UInt64) : Prop :=
  ∀ a b : UInt64, a.toNat + b.toNat < UInt64.size → add a b = some (a + b)

/-- What goes through the first `limit` bytes of a buffer. -/
structure Reader where
  buffer : Buffer
  limit : Nat
  offset : UInt64
  done : Bool

namespace Reader

/-- A reader of the first `count` bytes, or of all if there are fewer. -/
def start (buffer : Buffer) (count : Nat) : Reader :=
  ⟨buffer, min count buffer.size, 0, min count buffer.size = 0⟩

variable (add : UInt64 → UInt64 → Option UInt64)

/-- The number in the four bytes from an offset on. -/
def word? (r : Reader) (offset : UInt64) : Option UInt32 := do
  let behind ← add offset 4
  if behind.toNat ≤ r.limit then some (r.buffer.wordAt offset.toNat) else none

/-- The three numbers before the name. -/
def header? (r : Reader) : Option (UInt32 × UInt32 × UInt32) := do
  let next ← r.word? add r.offset
  let action ← (add r.offset 4).bind (r.word? add)
  let size ← (add r.offset 8).bind (r.word? add)
  some (next, action, size)

/-- The offset at which a name of so many bytes begins. -/
def name? (r : Reader) (size : UInt32) : Option UInt64 := do
  let start ← add r.offset 12
  let behind ← add start size.toUInt64
  if behind.toNat ≤ r.limit then some start else none

/-- The record at the offset, with the distance to the next one. -/
def record? (r : Reader) : Option (Record × UInt32) := do
  let (next, action, size) ← r.header? add
  if size = 0 then none
  else if size % 2 ≠ 0 then none
  else
    let start ← r.name? add size
    if next ≠ 0 ∧ next.toUInt64 < 12 + size.toUInt64 then none
    else some (⟨r.offset.toNat, next.toNat, action,
      r.buffer.unitsAt start.toNat (size.toNat / 2)⟩, next)

/-- Reads on: answers the record at the offset and goes to the next one. Where no record is, the
reader is done, and also behind the last record. -/
def step (r : Reader) : Option Record × Reader :=
  if r.done then (none, r)
  else
    match r.record? add with
    | none => (none, { r with done := true })
    | some (record, next) =>
      match add r.offset next.toUInt64 with
      | none => (some record, { r with done := true })
      | some offset =>
        if next ≠ 0 then (some record, { r with offset }) else (some record, { r with done := true })

/-- A reader after it has been asked so many times. -/
def after (r : Reader) : Nat → Reader
  | 0 => r
  | n + 1 => (after r n |>.step add).2

/-- The answer to the question that comes after so many others. -/
def answer (r : Reader) (n : Nat) : Option Record := (r.after add n |>.step add).1

/-! ## Sums that fit -/

variable {add : UInt64 → UInt64 → Option UInt64} {r : Reader}

theorem toNat_add_of_fits {a b : UInt64} (fits : a.toNat + b.toNat < UInt64.size) :
    (a + b).toNat = a.toNat + b.toNat := by
  rw [UInt64.toNat_add]
  exact Nat.mod_eq_of_lt fits

theorem word?_eq (right : AddsWithin add) {offset : UInt64}
    (low : offset.toNat + 4 < UInt64.size) :
    r.word? add offset =
      if offset.toNat + 4 ≤ r.limit then some (r.buffer.wordAt offset.toNat) else none := by
  have behind : (offset + 4).toNat = offset.toNat + 4 := toNat_add_of_fits low
  rw [word?, right offset 4 low]
  show (if (offset + 4).toNat ≤ r.limit then _ else _) = _
  rw [behind]

theorem header?_eq (right : AddsWithin add) (low : r.offset.toNat + 12 < UInt64.size) :
    r.header? add =
      if r.offset.toNat + 12 ≤ r.limit then
        some (r.buffer.wordAt r.offset.toNat, r.buffer.wordAt (r.offset.toNat + 4),
          r.buffer.wordAt (r.offset.toNat + 8))
      else none := by
  have to4 : r.offset.toNat + (4 : UInt64).toNat < UInt64.size :=
    Nat.lt_of_le_of_lt (Nat.add_le_add_left (by decide) _) low
  have to8 : r.offset.toNat + (8 : UInt64).toNat < UInt64.size :=
    Nat.lt_of_le_of_lt (Nat.add_le_add_left (by decide) _) low
  have at4 : (r.offset + 4).toNat = r.offset.toNat + 4 := toNat_add_of_fits to4
  have at8 : (r.offset + 8).toNat = r.offset.toNat + 8 := toNat_add_of_fits to8
  rw [header?, right _ _ to4, right _ _ to8, Option.bind_some, Option.bind_some,
    word?_eq right to4, word?_eq right (by omega), word?_eq right (by omega), at4, at8]
  by_cases whole : r.offset.toNat + 12 ≤ r.limit
  · rw [if_pos (by omega), if_pos (by omega), if_pos (by omega), if_pos whole]
    rfl
  · rw [if_neg whole, if_neg (c := r.offset.toNat + 8 + 4 ≤ r.limit) (by omega)]
    simp

theorem name?_eq (right : AddsWithin add) {size : UInt32}
    (low : r.offset.toNat + 12 + size.toNat < UInt64.size) :
    r.name? add size =
      if r.offset.toNat + 12 + size.toNat ≤ r.limit then some (r.offset + 12) else none := by
  have start : r.offset.toNat + (12 : UInt64).toNat < UInt64.size :=
    Nat.lt_of_le_of_lt (Nat.le_add_right ..) low
  have at12 : (r.offset + 12).toNat = r.offset.toNat + 12 := toNat_add_of_fits start
  have behind : (r.offset + 12).toNat + size.toUInt64.toNat < UInt64.size := by
    rw [at12, UInt32.toNat_toUInt64]
    exact low
  rw [name?, right _ _ start]
  show (do
    let behind ← add (r.offset + 12) size.toUInt64
    if behind.toNat ≤ r.limit then some (r.offset + 12) else none) = _
  rw [right _ _ behind]
  show (if (r.offset + 12 + size.toUInt64).toNat ≤ r.limit then _ else _) = _
  rw [toNat_add_of_fits behind, at12, UInt32.toNat_toUInt64]

/-- Sums that fit lead to the record that the walk finds. -/
theorem record?_eq (right : AddsWithin add) (low : r.offset.toNat + 12 + 2 ^ 32 ≤ UInt64.size) :
    r.record? add = (at? r.buffer r.limit r.offset.toNat).map fun record =>
      (record, r.buffer.wordAt r.offset.toNat) := by
  have start : (r.offset + 12).toNat = r.offset.toNat + 12 :=
    toNat_add_of_fits (show r.offset.toNat + 12 < UInt64.size by omega)
  rw [record?, header?_eq right (by omega), at?]
  by_cases headed : r.limit < r.offset.toNat + headerSize
  · rw [if_pos headed, if_neg (by rw [headerSize] at headed; omega)]
    rfl
  rw [if_neg headed, if_pos (by rw [headerSize] at headed; omega)]
  show (if r.buffer.wordAt (r.offset.toNat + 8) = 0 then _ else _) =
    Option.map _ (if _ then _ else _)
  have small := (r.buffer.wordAt (r.offset.toNat + 8)).toNat_lt
  have fits : r.offset.toNat + 12 + (r.buffer.wordAt (r.offset.toNat + 8)).toNat < UInt64.size := by
    omega
  have name := name?_eq right fits
  generalize r.buffer.wordAt (r.offset.toNat + 8) = size at small name ⊢
  generalize r.buffer.wordAt r.offset.toNat = next
  by_cases nameless : size = 0
  · rw [if_pos nameless, if_pos (.inl (UInt32.toNat_inj.mpr nameless))]
    rfl
  by_cases odd : size % 2 ≠ 0
  · have odd' : size.toNat % 2 ≠ 0 := fun even => odd (UInt32.toNat_inj.mp even)
    rw [if_neg nameless, if_pos odd, if_pos (.inr odd')]
    rfl
  have sound : ¬ (size.toNat = 0 ∨ size.toNat % 2 ≠ 0) := by
    rintro (nameless' | odd')
    · exact nameless (UInt32.toNat_inj.mp nameless')
    · exact odd fun even => odd' (UInt32.toNat_inj.mpr even)
  rw [if_neg nameless, if_neg odd, if_neg sound, name]
  by_cases overruns : r.limit < r.offset.toNat + headerSize + size.toNat
  · rw [if_pos overruns, if_neg (by rw [headerSize] at overruns; omega)]
    rfl
  rw [if_neg overruns, if_pos (by rw [headerSize] at overruns; omega)]
  show (if next ≠ 0 ∧ next.toUInt64 < 12 + size.toUInt64 then _ else _) =
    Option.map _ (if _ then _ else _)
  have width : (12 + size.toUInt64).toNat = headerSize + size.toNat := by
    rw [toNat_add_of_fits (by
      rw [UInt32.toNat_toUInt64]
      show 12 + size.toNat < 2 ^ 64
      omega), UInt32.toNat_toUInt64]
    rfl
  have linked : (next ≠ 0 ∧ next.toUInt64 < 12 + size.toUInt64) ↔
      next.toNat ≠ 0 ∧ next.toNat < headerSize + size.toNat := by
    rw [UInt64.lt_iff_toNat_lt, width, UInt32.toNat_toUInt64, Ne, Ne, ← UInt32.toNat_inj]
    rfl
  by_cases overlaps : next ≠ 0 ∧ next.toUInt64 < 12 + size.toUInt64
  · rw [if_pos overlaps, if_pos (linked.mp overlaps)]
    rfl
  · rw [if_neg overlaps, if_neg fun h => overlaps (linked.mpr h), start]
    rfl

/-! ## What is left to read -/

/-- The reader will answer these records and then nothing any more. -/
structure Ahead (r : Reader) (rs : List Record) : Prop where
  limit : r.limit < 2 ^ 63
  offset : r.offset.toNat < 2 ^ 63 + 2 ^ 32
  rest : rs = if r.done then [] else walk r.buffer r.limit r.offset.toNat

theorem ahead_start {buffer : Buffer} (count : Nat) (short : buffer.size < 2 ^ 63) :
    Ahead (start buffer count) (all buffer count) := by
  refine ⟨Nat.lt_of_le_of_lt (Nat.min_le_right ..) short, ?_, ?_⟩
  · show 0 < 2 ^ 63 + 2 ^ 32
    decide
  show all buffer count = if decide (min count buffer.size = 0) then [] else all buffer count
  by_cases empty : min count buffer.size = 0
  · have none : at? buffer 0 0 = none := rfl
    rw [if_pos (decide_eq_true empty), all, empty, walk, none]
  · rw [if_neg (by simpa using empty)]

/-- Each step answers the next record, if there is one, and leaves the others. -/
theorem Ahead.step (right : AddsWithin add) {rs : List Record} (h : Ahead r rs) :
    (r.step add).1 = rs.head? ∧ Ahead (r.step add).2 rs.tail := by
  obtain ⟨limit, offset, rest⟩ := h
  rw [Reader.step]
  cases done : r.done with
  | true =>
    rw [done, if_pos rfl] at rest
    rw [if_pos rfl, rest]
    exact ⟨rfl, limit, offset, by rw [done]; rfl⟩
  | false =>
    rw [done, if_neg Bool.false_ne_true] at rest
    rw [if_neg Bool.false_ne_true,
      record?_eq right (by rw [UInt64.size]; omega)]
    cases found : at? r.buffer r.limit r.offset.toNat with
    | none =>
      rw [walk, found] at rest
      rw [rest]
      exact ⟨rfl, limit, offset, rfl⟩
    | some record =>
      obtain ⟨starts, spells⟩ := spells_of_at? found
      have bounds := at?_bounds found
      have next : record.next = (r.buffer.wordAt r.offset.toNat).toNat := by
        rw [spells.next, starts, Buffer.toNat_wordAt]
      have small := (r.buffer.wordAt r.offset.toNat).toNat_lt
      have fits :
          r.offset.toNat + (r.buffer.wordAt r.offset.toNat).toUInt64.toNat < UInt64.size := by
        rw [UInt32.toNat_toUInt64, UInt64.size]
        omega
      rw [walk, found] at rest
      change rs = if record.next = 0 then _ else _ at rest
      simp only [Option.map_some, right _ _ fits]
      by_cases last : r.buffer.wordAt r.offset.toNat = 0
      · have unlinked : record.next = 0 := by rw [next, last]; rfl
        rw [if_neg (not_not_intro last)]
        rw [if_pos unlinked] at rest
        rw [rest]
        exact ⟨rfl, limit, offset, rfl⟩
      · have linked : record.next ≠ 0 := by
          rw [next]
          exact fun zero => last (UInt32.toNat_inj.mp zero)
        have behind := toNat_add_of_fits fits
        rw [UInt32.toNat_toUInt64, ← next] at behind
        rw [if_pos last]
        rw [if_neg linked] at rest
        rw [rest]
        refine ⟨rfl, limit, ?_, ?_⟩
        · show (r.offset + _).toNat < _
          rw [behind, next]
          omega
        · rw [List.tail_cons, if_neg Bool.false_ne_true]
          show _ = walk r.buffer r.limit (r.offset + _).toNat
          rw [behind]

theorem Ahead.after (right : AddsWithin add) {rs : List Record} (h : Ahead r rs) (n : Nat) :
    Ahead (r.after add n) (rs.drop n) := by
  induction n with
  | zero => exact h
  | succ n ih =>
    have next := (ih.step right).2
    rw [List.tail_drop] at next
    exact next

theorem Ahead.answer (right : AddsWithin add) {rs : List Record} (h : Ahead r rs) (n : Nat) :
    r.answer add n = rs[n]? := by
  rw [Reader.answer, ((h.after right n).step right).1, List.head?_drop]

end Reader

theorem checkedAdd_within : AddsWithin checkedAdd := by
  intro a b fits
  exact if_pos fits

/-- What a look at the first `count` bytes of a buffer comes to that ends at `stop`. -/
structure Readout (buffer : Buffer) (count stop : Nat) : Prop where
  /-- One record leads to the next, and what is found is all that the bytes spell. -/
  chain : ∀ rs stop', Chain buffer (min count buffer.size) 0 rs stop' ↔
    rs = all buffer count ∧ stop' = stop
  /-- A reader answers the records one by one and then nothing any more, whatever it makes of sums
  that do not fit into 64 bits. -/
  answers : ∀ add, AddsWithin add →
    ∀ n, (Reader.start buffer count).answer add n = (all buffer count)[n]?
  /-- There are no such sums: where the reader stands, its offset, a header and a number of 32 bits
  fit together. -/
  low : ∀ add, AddsWithin add →
    ∀ n, ((Reader.start buffer count).after add n).offset.toNat + headerSize + UInt32.size ≤
      UInt64.size
  /-- Each record lies behind the ones before it. -/
  apart : (all buffer count).Pairwise fun r r' => r.finish ≤ r'.start
  inside : ∀ r ∈ all buffer count, r.start + 14 ≤ r.finish ∧ r.finish ≤ min count buffer.size
  few : (all buffer count).length ≤ min count buffer.size / 14
  /-- No other bytes matter than those of the records and of the header at which they end. -/
  alone : ∀ (other : Buffer) (count' : Nat), min count' other.size = min count buffer.size →
    (∀ i, i < min count buffer.size → Looked (all buffer count) stop i → other[i]? = buffer[i]?) →
    all other count' = all buffer count
  /-- Fewer bytes hold fewer changes, but the same ones. -/
  cut : ∀ count' ≤ count, decode buffer count' <+: decode buffer count
  /-- Patterns pick changes by their names, and nothing else changes. -/
  filtered : ∀ patterns : Patterns, decodeFiltered buffer count patterns =
    (decode buffer count).filter fun c => patterns.admits c.path

/-- Any bytes can be read, with sums of 64 bits, if there are less than 2⁶³ of them. -/
theorem readout (buffer : Buffer) (count : Nat) (short : buffer.size < 2 ^ 63) :
    ∃ stop, Readout buffer count stop := by
  obtain ⟨stop, chain⟩ := exists_chain buffer (min count buffer.size) 0
  have ahead := Reader.ahead_start count short
  refine ⟨stop, ?_⟩
  refine { chain := ?_, answers := ?_, low := ?_, apart := ?_, inside := ?_, few := ?_, alone := ?_,
           cut := ?_, filtered := ?_ }
  · intro rs stop'
    constructor
    · exact chain.unique
    · rintro ⟨rfl, rfl⟩
      exact chain
  · intro add right n
    exact ahead.answer right n
  · intro add right n
    have offset := (ahead.after right n).offset
    rw [headerSize, UInt32.size, UInt64.size]
    omega
  · exact chain.ordered.2
  · intro r mem
    have stands := chain.stands r mem
    exact ⟨stands.longer, stands.inside⟩
  · rcases chain.length_le with none | bound
    · show (walk _ _ _).length ≤ _
      rw [none]
      exact Nat.zero_le _
    · show (walk _ _ _).length ≤ _
      omega
  · intro other count' same agree
    obtain ⟨stop', chain'⟩ := exists_chain other (min count' other.size) 0
    rw [same] at chain'
    rw [all, same]
    exact ((chain.of_agree agree).unique chain').1
  · intro count' fewer
    obtain ⟨stop', chain'⟩ := exists_chain buffer (min count' buffer.size) 0
    have more : min count' buffer.size ≤ min count buffer.size := by omega
    exact (chain'.isPrefix more chain).map change
  · exact decodeFiltered_eq_filter buffer count

/-- Two records; the second one's successor would begin four gigabytes behind it. -/
def farLink : Buffer :=
  #[18, 0, 0, 0, 1, 0, 0, 0, 2, 0, 0, 0, 102, 0, 9, 9, 9, 9,
    255, 255, 255, 255, 2, 0, 0, 0, 2, 0, 0, 0, 103, 0]

theorem readout_farLink : farLink.size < 2 ^ 63 ∧
    decode farLink 100 = [⟨.added, "f"⟩, ⟨.removed, "g"⟩] ∧ ∃ stop, Readout farLink 100 stop ∧
      ∀ n, (Reader.start farLink 100).answer checkedAdd n = (all farLink 100)[n]? := by
  obtain ⟨stop, out⟩ := readout farLink 100 (by decide)
  exact ⟨by decide, by decide +kernel, stop, out, out.answers checkedAdd checkedAdd_within⟩

end Record

end DirWatch
