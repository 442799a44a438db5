import DirWatch.Proofs.Watch.Stages

/-!
# What the worker of a watch has before it

`Watch.backlog` counts what a watch has to tell. A read that ends takes something out of its
journal, whatever its buffer can hold (`Journal.backlog_complete`): a change that does not even fit
into an empty buffer is given up. So a callback that finds a completion leaves less than there was,
even if it asks for a read that ends at once (`Watch.At.backlog_work`).
-/

namespace DirWatch

namespace Journal

/-- How much a journal has to tell: each change, their loss and the error behind them count once. -/
def backlog (j : Journal) : Nat :=
  j.pending.length + (if j.overflowed then 1 else 0) + (if j.failure.isSome then 1 else 0)

variable {j : Journal} {buffer : Buffer}

/-- The first change that waits is taken or given up. -/
theorem pack_shortens (buffer : Buffer) (c : Change) (rest : List Change) :
    (pack (.start buffer) (c :: rest)).2.length ≤ rest.length := by
  rw [pack]
  split
  · exact (pack_suffix _ rest).length_le
  · have nothing_written : (RecordWriter.start buffer).isEmpty = true := rfl
    rw [if_pos nothing_written]
    exact (pack_suffix _ rest).length_le

/-- A read that ends for changes takes at least one of them out of the journal, whatever its buffer
can hold; the error behind them stays. -/
theorem complete_shortens (told : j.overflowed = false) (waits : j.pending ≠ []) (buffer : Buffer) :
    (j.complete buffer).2.pending.length < j.pending.length ∧
      (j.complete buffer).2.overflowed = false ∧ (j.complete buffer).2.failure = j.failure := by
  obtain ⟨capacity, pending, overflowed, failure⟩ := j
  obtain rfl : overflowed = false := told
  cases pending with
  | nil => exact absurd rfl waits
  | cons c rest =>
    refine ⟨?_, rfl, rfl⟩
    have shorter := pack_shortens buffer c rest
    show (pack (.start buffer) (c :: rest)).2.length < rest.length + 1
    omega

/-- Nothing waits behind the news of a loss, so that what waits gets shorter in any case. -/
theorem Sound.complete_shortens (sound : j.Sound) (waits : j.pending ≠ []) (buffer : Buffer) :
    (j.complete buffer).2.pending.length < j.pending.length := by
  refine (Journal.complete_shortens ?_ waits buffer).1
  cases lost : j.overflowed with
  | false => rfl
  | true => exact absurd (sound.emptied lost) waits

/-- A read that ends leaves less to tell than there was. -/
theorem backlog_complete (output : j.hasOutput = true) (buffer : Buffer) :
    (j.complete buffer).2.backlog < j.backlog := by
  cases told : j.overflowed with
  | true =>
    rw [complete_overflowed told, backlog, backlog, told]
    simp only [Bool.false_eq_true, if_false, if_true]
    omega
  | false =>
    by_cases waits : j.pending = []
    · -- nothing but the error is left that the read could end for
      obtain ⟨e, failed⟩ : ∃ e, j.failure = some e := by
        simpa [hasOutput, waits, told, Option.isSome_iff_exists] using output
      rw [complete_failed told waits failed, backlog, backlog, failed]
      simp only [Option.isSome_some, Option.isSome_none, Bool.false_eq_true, if_false, if_true]
      omega
    · obtain ⟨shorter, still_told, same⟩ := complete_shortens told waits buffer
      rw [backlog, backlog, still_told, told, same]
      omega

end Journal

/-- A completion that waits to be taken counts once. -/
def Stage.backlog (stage : Stage) : Nat := if stage.isReady then 1 else 0

/-- Asking for a read adds nothing to what there is to tell: a read that ends at once takes out of
the journal what its completion counts for. -/
theorem Journal.backlog_offer (j : Journal) (buffer : Buffer) :
    (j.offer buffer).2.backlog + (j.offer buffer).1.backlog ≤ j.backlog := by
  cases output : j.hasOutput with
  | true =>
    have less := backlog_complete output buffer
    rw [offer_of_output output]
    show (j.complete buffer).2.backlog + 1 ≤ j.backlog
    omega
  | false =>
    rw [offer_of_silent output]
    exact Nat.le_refl _

namespace Watch

variable {w : Watch} {root : RawPath} {stage : Stage} {j : Journal} {l : Latch}

theorem At.backlog (h : w.At root stage j l) : w.backlog = j.backlog + stage.backlog := by
  rw [Watch.backlog, h.opened]
  cases stage <;> rfl

theorem At.isSignaled (h : w.At root stage j l) : w.isSignaled = l.isUp := by
  rw [Watch.isSignaled, h.signal]
  rfl

/-- A callback that finds a completion leaves less to tell than there was. -/
theorem At.backlog_callBack (h : w.At root stage j l) (ready : stage.isReady = true) (host : Host) :
    (w.onReadComplete host).2.1.backlog < w.backlog := by
  rw [h.backlog]
  match stage, h, ready with
  | .ready (.failed e), h, _ =>
    obtain ⟨w', called, stands, -⟩ := h.callBack_failed host
    rw [called]
    show w'.backlog < j.backlog + 1
    rw [stands.backlog]
    exact Nat.lt_succ_self _
  | .ready (.done buffer bytes), h, _ =>
    obtain ⟨w', called, asked⟩ := h.callBack_done host
    have at_hand := (w.betweenReads_endRead (w.directoryAt root .ended j) buffer bytes).nextBuffer
    have offered := j.backlog_offer buffer
    rw [called]
    show w'.backlog < j.backlog + 1
    rw [asked.stands.backlog, at_hand]
    omega

/-- Each time that the worker finds the signal up, it leaves less to tell than there was. -/
theorem At.backlog_work (h : w.At root stage j l) (up : w.isSignaled = true)
    (ready : stage.isReady = true) (host : Host) : (w.work host).2.1.backlog < w.backlog := by
  rw [work, if_pos up, h.backlog, ← h.consume.backlog]
  exact h.consume.backlog_callBack ready host

end Watch

end DirWatch
