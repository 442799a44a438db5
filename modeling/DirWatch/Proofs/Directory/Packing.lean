import DirWatch.Directory.Journal
import DirWatch.Proofs.Notice.Names

/-!
# What a read takes out of a journal

A read gives up the changes at the front that are larger than its buffer (`Journal.oversized`),
hands out as many of the next ones as fit behind one another (`Journal.handed`) and leaves the rest
(`Journal.remaining`); these are the three parts of what waits (`Journal.parts`).
`Journal.pack_start` says that packing does just this, and `Journal.complete_packed` that the
completion of a read decodes to what was handed out.
-/

namespace DirWatch

/-- The changes that a completion hands out. -/
def Completion.changes : Completion → List Change
  | done buffer bytes => Record.decode buffer bytes
  | failed _ => []

namespace Journal

open Record

/-- Tells the changes that no buffer of this size takes. -/
def tooLarge (size : Nat) (c : Change) : Bool := size < c.recordSize

/-- The changes at the front that are too large. -/
def oversized (size : Nat) (pending : List Change) : List Change :=
  pending.takeWhile (tooLarge size)

/-- The changes behind them whose records fit into one buffer. -/
def handed (size : Nat) (pending : List Change) : List Change :=
  within size 0 (pending.dropWhile (tooLarge size))

/-- The changes that have to wait for the next read. -/
def remaining (size : Nat) (pending : List Change) : List Change :=
  (pending.dropWhile (tooLarge size)).drop (handed size pending).length

theorem within_prefix (limit start : Nat) (cs : List Change) :
    within limit start cs ++ cs.drop (within limit start cs).length = cs := by
  induction cs generalizing start with
  | nil => rfl
  | cons c rest ih =>
    rw [within]
    split
    · rw [List.length_cons, List.drop_succ_cons, List.cons_append, ih]
    · rfl

/-- Nothing of what waits is left out or comes in another order. -/
theorem parts (size : Nat) (pending : List Change) :
    pending = oversized size pending ++ (handed size pending ++ remaining size pending) := by
  rw [handed, remaining, handed, within_prefix, oversized, List.takeWhile_append_dropWhile]

theorem recordSize_le_of_mem_within {limit start : Nat} {cs : List Change} {c : Change}
    (h : c ∈ within limit start cs) : c.recordSize ≤ limit := by
  induction cs generalizing start with
  | nil => simp [within] at h
  | cons d rest ih =>
    rw [within] at h
    split at h
    · next inside =>
      rcases List.mem_cons.mp h with rfl | h
      · omega
      · exact ih h
    · simp at h

theorem lt_recordSize_of_mem_oversized {size : Nat} {pending : List Change} {c : Change}
    (h : c ∈ oversized size pending) : size < c.recordSize := by
  have large := List.all_eq_true.mp List.all_takeWhile c h
  simpa [tooLarge] using large

/-! ## Packing -/

variable {w : RecordWriter} {cs pending : List Change}

/-- A named change is taken exactly if its record ends within the buffer. -/
theorem push?_named (small : w.buffer.size < UInt32.size) {c : Change} (named : c.Named) :
    (w.push? c.action c.path).isSome = true ↔
      w.nextStart + c.recordSize ≤ w.buffer.size := by
  have some_unit : c.units.length ≠ 0 := fun none_left =>
    named (List.length_eq_zero_iff.mp none_left)
  rw [RecordWriter.push?_eq, Change.recordSize]
  have room := RecordWriter.fits_iff small c.units.length
  split
  · next fits => simpa using (room.mp fits).2
  · next full =>
    constructor
    · intro h
      simp at h
    · intro inside
      exact absurd (room.mpr ⟨some_unit, inside⟩) full

/-- A buffer with records in it is filled as far as the next changes fit. -/
theorem pack_written (small : w.buffer.size < UInt32.size) (written : w.Written cs)
    (begun : cs ≠ []) (named : ∀ c ∈ pending, c.Named) :
    ∃ w', pack w pending =
        (w', pending.drop (within w.buffer.size w.nextStart pending).length) ∧
      w'.Written (cs ++ within w.buffer.size w.nextStart pending) ∧
      w'.buffer.size = w.buffer.size := by
  induction pending generalizing w cs with
  | nil => exact ⟨w, rfl, by rwa [within, List.append_nil], rfl⟩
  | cons c rest ih =>
    have named_c := named c List.mem_cons_self
    have room := push?_named small named_c
    rw [pack, within]
    cases taken : w.push? c.action c.path with
    | some next =>
      rw [taken] at room
      have inside := room.mp rfl
      obtain ⟨written', start⟩ := written.push taken
      have size := RecordWriter.size_of_push? taken
      obtain ⟨w', packed, all_written, size'⟩ := ih (by rw [size]; exact small) written'
        (by simp) (fun d hd => named d (List.mem_cons_of_mem _ hd))
      rw [size, start] at packed all_written
      rw [if_pos inside]
      refine ⟨w', packed, ?_, by rw [size', size]⟩
      rw [List.append_assoc] at all_written
      exact all_written
    | none =>
      -- a writer with a record in it stops at the first change that does not fit
      rw [taken] at room
      have outside : ¬ w.nextStart + c.recordSize ≤ w.buffer.size := fun h => by
        simpa using room.mpr h
      have some_record : w.isEmpty = false := by
        have := written.isEmpty_iff
        simpa [begun] using this
      rw [if_neg outside]
      simp only [some_record]
      exact ⟨w, rfl, by rwa [List.append_nil], rfl⟩

/-- An empty buffer gives up what is too large for it and is filled with what comes next. -/
theorem pack_start {buffer : Buffer} (small : buffer.size < UInt32.size)
    (named : ∀ c ∈ pending, c.Named) :
    ∃ w', pack (.start buffer) pending = (w', remaining buffer.size pending) ∧
      w'.Written (handed buffer.size pending) ∧ w'.buffer.size = buffer.size := by
  induction pending with
  | nil => exact ⟨.start buffer, rfl, .start buffer, rfl⟩
  | cons c rest ih =>
    have named_c := named c List.mem_cons_self
    have named_rest : ∀ d ∈ rest, d.Named := fun d hd => named d (List.mem_cons_of_mem _ hd)
    have room := push?_named (w := .start buffer) small named_c
    rw [RecordWriter.nextStart_start, Nat.zero_add] at room
    rw [pack]
    cases taken : (RecordWriter.start buffer).push? c.action c.path with
    | some next =>
      rw [taken] at room
      have inside : c.recordSize ≤ buffer.size := room.mp rfl
      have fits : tooLarge buffer.size c = false := by simpa [tooLarge] using inside
      obtain ⟨written, start⟩ := (RecordWriter.Written.start buffer).push taken
      have size := RecordWriter.size_of_push? taken
      obtain ⟨w', packed, all_written, size'⟩ := pack_written (by rw [size]; exact small) written
        (by simp) named_rest
      rw [size, start, RecordWriter.nextStart_start] at packed all_written
      have handed_eq : handed buffer.size (c :: rest) =
          c :: within buffer.size (alignUp (0 + c.recordSize)) rest := by
        rw [handed, List.dropWhile_cons_of_neg (by simp [fits]), within, if_pos (by omega)]
      refine ⟨w', ?_, ?_, by rw [size', size]; rfl⟩
      · rw [remaining, handed_eq, List.dropWhile_cons_of_neg (by simp [fits])]
        exact packed
      · rw [handed_eq]
        exact all_written
    | none =>
      -- an empty writer gives up the change that it has no room for, and goes on
      rw [taken] at room
      have large : tooLarge buffer.size c = true := by
        have : ¬ c.recordSize ≤ buffer.size := fun h => by simpa using room.mpr h
        simpa [tooLarge] using this
      have same : (c :: rest).dropWhile (tooLarge buffer.size) =
          rest.dropWhile (tooLarge buffer.size) := List.dropWhile_cons_of_pos large
      rw [remaining, handed, same]
      exact ih named_rest

/-- Whatever the buffer, what packing leaves is the end of what waited. -/
theorem pack_suffix (w : RecordWriter) (pending : List Change) :
    (pack w pending).2 <:+ pending := by
  induction pending generalizing w with
  | nil => exact List.suffix_refl _
  | cons c rest ih =>
    rw [pack]
    split
    · exact (ih _).trans (List.suffix_cons c rest)
    · split
      · exact (ih w).trans (List.suffix_cons c rest)
      · exact List.suffix_refl _

/-- Whatever the buffer, packing adds records behind those that are there, as far as they fit. -/
theorem exists_pack_written {w : RecordWriter} {cs : List Change} (written : w.Written cs)
    (pending : List Change) :
    ∃ more, (pack w pending).1.Written (cs ++ more) ∧
      (pack w pending).1.buffer.size = w.buffer.size := by
  induction pending generalizing w cs with
  | nil => exact ⟨[], by rw [List.append_nil]; exact written, rfl⟩
  | cons c rest ih =>
    rw [pack]
    split
    · next w' taken =>
      obtain ⟨more, written', size⟩ := ih (written.push taken).1
      refine ⟨c :: more, ?_, ?_⟩
      · rw [List.append_cons]
        exact written'
      · rw [size, RecordWriter.size_of_push? taken]
    · split
      · exact ih written
      · exact ⟨[], by rw [List.append_nil]; exact written, rfl⟩

/-! ## The end of a read -/

variable {j : Journal} {buffer : Buffer}

/-- A read returns its buffer, and what it reports lies in it. -/
theorem complete_within {filled : Buffer} {bytes : Nat}
    (done : (j.complete buffer).1 = .done filled bytes) :
    filled.size = buffer.size ∧ bytes ≤ buffer.size := by
  rw [complete] at done
  split at done
  · obtain ⟨rfl, rfl⟩ := Completion.done.inj done
    exact ⟨rfl, Nat.zero_le _⟩
  · split at done
    · simp at done
    · obtain ⟨more, written, size⟩ := exists_pack_written (.start buffer) j.pending
      obtain ⟨rfl, rfl⟩ := Completion.done.inj done
      refine ⟨size, ?_⟩
      rw [← show (RecordWriter.start buffer).buffer.size = buffer.size from rfl, ← size]
      exact written.finish_le_size

/-- A read only takes changes from the front, and it tells the news of a loss. -/
theorem complete_pending_suffix (j : Journal) (buffer : Buffer) :
    (j.complete buffer).2.pending <:+ j.pending ∧ (j.complete buffer).2.overflowed = false := by
  rw [complete]
  split
  · exact ⟨List.suffix_refl _, rfl⟩
  · next kept =>
    split
    · exact ⟨List.suffix_refl _, by simpa using kept⟩
    · exact ⟨pack_suffix _ _, by simpa using kept⟩

/-- A read that ends with the news of a loss hands out nothing. -/
theorem complete_overflowed (lost : j.overflowed = true) :
    j.complete buffer = (.done buffer 0, { j with overflowed := false }) := by
  rw [complete, if_pos lost]

/-- An error ends a read only when nothing came before it. -/
theorem complete_failed (kept : j.overflowed = false) (empty : j.pending = []) {e : IoError}
    (failed : j.failure = some e) :
    j.complete buffer = (.failed e, { j with failure := none }) := by
  rw [complete, if_neg (by simp [kept]), empty, failed]

/-- Otherwise a read hands out changes: its completion decodes to them, in a buffer of the same
size. -/
theorem complete_packed (kept : j.overflowed = false)
    (output : j.pending ≠ [] ∨ j.failure = none) (small : buffer.size < UInt32.size)
    (named : ∀ c ∈ j.pending, c.Named) :
    ∃ filled bytes, j.complete buffer =
        (.done filled bytes, { j with pending := remaining buffer.size j.pending }) ∧
      Record.decode filled bytes = handed buffer.size j.pending ∧
      filled.size = buffer.size ∧ bytes ≤ filled.size := by
  obtain ⟨w, packed, written, size⟩ := pack_start small named
  refine ⟨w.buffer, w.finish, ?_, written.decode_eq, size, written.finish_le_size⟩
  rw [complete, if_neg (by simp [kept])]
  split
  · next empty failed =>
    rcases output with some_change | none_failed
    · exact absurd empty some_change
    · rw [failed] at none_failed
      simp at none_failed
  · rw [packed]

end Journal

end DirWatch
