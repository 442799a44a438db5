import DirWatch.Proofs.Directory.Steps
import DirWatch.Proofs.Record.RoundTrip
import Mathlib.Data.List.TakeWhile

/-!
# A read is filled as far as it goes

A read that ends takes as much out of the journal as its buffer holds: behind the changes that are
too large for the buffer, the longest part from the front whose records end within it
(`Record.within_longest`). `Directory.packs_greedily` says this of the completion that is stored,
and that nothing else happens to what waits.
-/

namespace DirWatch

namespace Record

/-- The records of these changes end within a limit, when each starts at the first multiple of four
behind the one before it. -/
def Fit (limit start : Nat) (cs : List Change) : Prop := ∀ x ∈ placed start cs, x.2 ≤ limit

variable {limit start : Nat} {c : Change} {cs : List Change}

theorem fit_nil : Fit limit start [] := by
  intro x mem
  exact absurd mem List.not_mem_nil

theorem fit_cons : Fit limit start (c :: cs) ↔
    start + c.recordSize ≤ limit ∧ Fit limit (alignUp (start + c.recordSize)) cs := by
  rw [Fit, placed, List.forall_mem_cons]
  exact Iff.rfl

theorem within_fit (limit start : Nat) (cs : List Change) :
    Fit limit start (within limit start cs) := by
  induction cs generalizing start with
  | nil => exact fit_nil
  | cons c rest ih =>
    rw [within]
    split
    · next inside => exact fit_cons.mpr ⟨inside, ih _⟩
    · exact fit_nil

/-- No longer part from the front fits. -/
theorem within_longest {more : List Change} (front : more <+: cs) (fit : Fit limit start more) :
    more <+: within limit start cs := by
  induction cs generalizing start more with
  | nil => exact front
  | cons c rest ih =>
    cases more with
    | nil => exact List.nil_prefix
    | cons d more =>
      obtain ⟨rfl, behind⟩ := List.cons_prefix_cons.mp front
      obtain ⟨inside, others⟩ := fit_cons.mp fit
      rw [within, if_pos inside]
      exact List.cons_prefix_cons.mpr ⟨rfl, ih behind others⟩

end Record

/-- A writer has written no byte exactly if it has taken no change. -/
theorem RecordWriter.Written.finish_eq_zero_iff {w : RecordWriter} {cs : List Change}
    (h : w.Written cs) : w.finish = 0 ↔ cs = [] := by
  cases h with
  | start buffer => exact ⟨fun _ => rfl, fun _ => rfl⟩
  | @laid buffer last finish cs laid =>
    have behind := laid.last_lt_finish
    constructor
    · intro nothing
      have nothing : finish = 0 := nothing
      omega
    · rintro rfl
      cases laid

namespace Directory

open Record

/-- If nothing is handed out, there is nothing behind the changes that are too large: the first one
there would fit on its own. -/
theorem behind_eq_nil {size : Nat} {cs : List Change}
    (none_taken : within size 0 (cs.dropWhile (Journal.tooLarge size)) = []) :
    cs.dropWhile (Journal.tooLarge size) = [] := by
  cases front : cs.dropWhile (Journal.tooLarge size) with
  | nil => rfl
  | cons c rest =>
    have first := List.head?_dropWhile_not (Journal.tooLarge size) cs
    rw [front] at first none_taken
    have fits : c.recordSize ≤ size := by simpa [Journal.tooLarge] using first
    have alone : Fit size 0 [c] := fit_cons.mpr ⟨by omega, fit_nil⟩
    have taken : [c] <+: within size 0 (c :: rest) := within_longest ⟨rest, rfl⟩ alone
    rw [none_taken] at taken
    exact absurd (List.prefix_nil.mp taken) (List.cons_ne_nil c [])

/-- A read that is armed while changes wait ends, whatever its buffer holds. The changes at the
front whose records are larger than the buffer are given up. Of those behind them the longest part
from the front is handed out whose records fit one behind the other; the others stay as they are,
whatever their size. The completion decodes to what is handed out, and it has no bytes only if there
is nothing left. -/
theorem packs_greedily {d : Directory} {buffer : Buffer} {signal : SignalName}
    (armed : d.slot = .armed buffer signal) (told : d.journal.overflowed = false)
    (waits : d.journal.pending ≠ []) (named : ∀ c ∈ d.journal.pending, c.path ≠ "")
    (small : buffer.size < UInt32.size) :
    ∃ filled bytes taken left,
      d.settle = ⟨{ d with
        journal := { d.journal with pending := left }
        slot := .finished (.done filled bytes) }, (), some signal⟩ ∧
      filled.size = buffer.size ∧
      d.journal.pending.dropWhile (fun c => buffer.size < c.recordSize) = taken ++ left ∧
      Fit buffer.size 0 taken ∧
      (∀ more, more <+: taken ++ left → Fit buffer.size 0 more → more <+: taken) ∧
      decode filled bytes = taken ∧
      (bytes = 0 ↔ taken = []) ∧
      (taken = [] → left = [] ∧ ∀ c ∈ d.journal.pending, buffer.size < c.recordSize) := by
  have output : d.journal.hasOutput = true := by simp [Journal.hasOutput, waits]
  have units : ∀ c ∈ d.journal.pending, c.Named := fun c mem => c.named_iff.mpr (named c mem)
  obtain ⟨w, packed, written, size⟩ := Journal.pack_start small units
  have completes : d.journal.complete buffer = (.done w.buffer w.finish,
      { d.journal with pending := Journal.remaining buffer.size d.journal.pending }) := by
    rw [Journal.complete, if_neg (by simp [told])]
    split
    · next none_waits _ => exact absurd none_waits waits
    · rw [packed]
  have ends := settle_of_output armed output
  rw [completes] at ends
  obtain ⟨behind, behind_eq⟩ : ∃ behind, behind = d.journal.pending.dropWhile
      (Journal.tooLarge buffer.size) := ⟨_, rfl⟩
  have taken_eq : Journal.handed buffer.size d.journal.pending = within buffer.size 0 behind := by
    rw [behind_eq]
    rfl
  have split_behind : behind = within buffer.size 0 behind ++
      Journal.remaining buffer.size d.journal.pending := by
    rw [Journal.remaining, taken_eq, ← behind_eq, Journal.within_prefix]
  have longest : ∀ more, more <+: behind → Fit buffer.size 0 more →
      more <+: within buffer.size 0 behind := fun more front fit => within_longest front fit
  rw [taken_eq] at written
  refine ⟨w.buffer, w.finish, within buffer.size 0 behind,
    Journal.remaining buffer.size d.journal.pending, ends, size, ?_, within_fit _ _ _, ?_,
    written.decode_eq, written.finish_eq_zero_iff, ?_⟩
  · rw [← split_behind]
    exact behind_eq.symm
  · rw [← split_behind]
    exact longest
  · intro none_taken
    have nothing : behind = [] := by
      rw [behind_eq] at none_taken ⊢
      exact behind_eq_nil none_taken
    rw [none_taken, List.nil_append] at split_behind
    refine ⟨split_behind.symm.trans nothing, ?_⟩
    intro c mem
    have all := List.dropWhile_eq_nil_iff.mp (behind_eq.symm.trans nothing) c mem
    simpa [Journal.tooLarge] using all

/-- A read of 16 bytes for four changes: the first is too large for it, the second ends at 14, the
third would start behind the end, and the fourth is too large again. An error waits behind them. -/
def fourWaiting : Directory where
  root := [RawPath.slash]
  filter := .empty
  journal :=
    { capacity := 8
      pending := [⟨.added, "xyz"⟩, ⟨.unknown, "é"⟩, ⟨.modified, "c"⟩, ⟨.renamedFrom, "xyz"⟩]
      overflowed := false
      failure := some abortedError }
  slot := .armed (Array.replicate 16 255) 7
  observation := .observing false

theorem packs_greedily_fourWaiting :
    fourWaiting.slot = .armed (Array.replicate 16 255) 7 ∧
      fourWaiting.journal.overflowed = false ∧ fourWaiting.journal.pending ≠ [] ∧
      (∀ c ∈ fourWaiting.journal.pending, c.path ≠ "") ∧
      (Array.replicate 16 (255 : UInt8)).size < UInt32.size ∧
      ∃ filled bytes taken left,
        fourWaiting.settle = ⟨{ fourWaiting with
          journal := { fourWaiting.journal with pending := left }
          slot := .finished (.done filled bytes) }, (), some 7⟩ ∧
        decode filled bytes = taken ∧ (bytes = 0 ↔ taken = []) ∧
        taken = [⟨.unknown, "é"⟩] ∧ left = [⟨.modified, "c"⟩, ⟨.renamedFrom, "xyz"⟩] := by
  have named : ∀ c ∈ fourWaiting.journal.pending, c.path ≠ "" := by decide
  have small : (Array.replicate 16 (255 : UInt8)).size < UInt32.size := by decide
  have waits : fourWaiting.journal.pending ≠ [] := by decide
  obtain ⟨filled, bytes, taken, left, ends, -, parts, -, -, decodes, empty, -⟩ :=
    packs_greedily (d := fourWaiting) rfl rfl waits named small
  have left_eq : fourWaiting.settle.directory.journal.pending =
      [⟨.modified, "c"⟩, ⟨.renamedFrom, "xyz"⟩] := by decide +kernel
  have behind : fourWaiting.journal.pending.dropWhile (fun c => 16 < c.recordSize) =
      [⟨.unknown, "é"⟩] ++ [⟨.modified, "c"⟩, ⟨.renamedFrom, "xyz"⟩] := by decide +kernel
  rw [ends] at left_eq
  obtain rfl : left = _ := left_eq
  refine ⟨rfl, rfl, waits, named, small, filled, bytes, taken, _, ends, decodes, empty, ?_, rfl⟩
  exact List.append_cancel_right (parts.symm.trans behind)

end Directory

end DirWatch
