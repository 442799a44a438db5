import DirWatch.Proofs.Watch.Stages

/-!
# Counted reads

`Counters.Regular` counts are those that come about when no read ends that was not under way.
`Watch.Counted` says how the counts of a watch agree with its one read; it holds of a watch that has
not started, and issuing a read and ending one keep it (`Watch.Counted.issue`,
`Watch.Counted.finish`). So does closing, which leaves no read behind (`Watch.Counted.close`).
-/

namespace DirWatch

namespace Counters

/-- Counts in which every read that ended was under way before. -/
inductive Regular : Counters → Prop where
  | zero : Regular zero
  | issue {c : Counters} (before : Regular c) : Regular c.issue
  | finish {c : Counters} (before : Regular c) (some_read : 0 < c.outstanding) (ok : Bool) :
      Regular (c.finish ok)

theorem Regular.balanced {c : Counters} (h : c.Regular) : c.Balanced := by
  induction h with
  | zero => exact balanced_zero
  | issue _ ih => exact ih.issue
  | finish _ some_read ok ih => exact ih.finish some_read ok

/-- No count exceeds the number of reads that were issued: what holds that number holds them all. -/
theorem Regular.le_issued {c : Counters} (h : c.Regular) :
    c.completed ≤ c.issued ∧ c.failed ≤ c.issued ∧ c.outstanding ≤ c.issued ∧
      c.maxOutstanding ≤ c.issued := by
  have most : c.maxOutstanding ≤ c.issued := by
    induction h with
    | zero => exact Nat.le_refl 0
    | @issue c before ih =>
      have balanced : c.issued = c.completed + c.failed + c.outstanding := before.balanced
      show max c.maxOutstanding (c.outstanding + 1) ≤ c.issued + 1
      omega
    | finish _ _ _ ih => exact ih
  have balanced : c.issued = c.completed + c.failed + c.outstanding := h.balanced
  exact ⟨by omega, by omega, by omega, most⟩

theorem outstanding_finish (c : Counters) (ok : Bool) :
    (c.finish ok).outstanding = c.outstanding - 1 := rfl

theorem issued_finish (c : Counters) (ok : Bool) : (c.finish ok).issued = c.issued := rfl

theorem maxOutstanding_finish (c : Counters) (ok : Bool) :
    (c.finish ok).maxOutstanding = c.maxOutstanding := rfl

end Counters

namespace Watch

/-- The counts of a watch agree with its one read: it is the only one under way, if there is one,
and there never were two at once. -/
structure Counted (w : Watch) : Prop where
  regular : w.counters.Regular
  outstanding : w.counters.outstanding = if w.readOutstanding then 1 else 0
  at_most_one : w.counters.maxOutstanding = min w.counters.issued 1

variable {w w' : Watch}

theorem counted_unstarted (handle : Handle) (settings : WatchSettings) :
    (unstarted handle settings).Counted :=
  ⟨.zero, rfl, rfl⟩

/-- A watch without a read issues one. -/
theorem Counted.issue (h : w.Counted) (idle : w.readOutstanding = false)
    (counters : w'.counters = w.counters.issue) (reading : w'.readOutstanding = true) :
    w'.Counted := by
  have none_out : w.counters.outstanding = 0 := by rw [h.outstanding, idle]; rfl
  have one := h.at_most_one
  refine ⟨?_, ?_, ?_⟩
  · rw [counters]
    exact h.regular.issue
  · rw [counters, reading]
    simp only [Counters.issue, none_out]
    rfl
  · rw [counters]
    simp only [Counters.issue, none_out, one]
    omega

theorem Counted.finish (h : w.Counted) (reading : w.readOutstanding = true) {ok : Bool}
    (counters : w'.counters = w.counters.finish ok) (idle : w'.readOutstanding = false) :
    w'.Counted := by
  have one_out : w.counters.outstanding = 1 := by rw [h.outstanding, reading]; rfl
  refine ⟨?_, ?_, ?_⟩
  · rw [counters]
    exact h.regular.finish (by omega) ok
  · rw [counters, idle, Counters.outstanding_finish, one_out]
    rfl
  · rw [counters, Counters.maxOutstanding_finish, Counters.issued_finish]
    exact h.at_most_one

/-- A request that is refused counts as a read that ended. -/
theorem Counted.refused (h : w.Counted) (idle : w.readOutstanding = false)
    (counters : w'.counters = w.counters.issue.finish false)
    (idle' : w'.readOutstanding = false) : w'.Counted := by
  have asked : ({ w with counters := w.counters.issue, readOutstanding := true }).Counted :=
    h.issue idle rfl rfl
  exact asked.finish rfl counters idle'

/-- What does not touch the counts leaves them in agreement. -/
theorem Counted.congr (h : w.Counted) (counters : w'.counters = w.counters)
    (reading : w'.readOutstanding = w.readOutstanding) : w'.Counted := by
  refine ⟨?_, ?_, ?_⟩
  · rw [counters]
    exact h.regular
  · rw [counters, reading]
    exact h.outstanding
  · rw [counters]
    exact h.at_most_one

/-- The counts of a watch without a read: all that was issued has ended. -/
theorem Counted.settled (h : w.Counted) (idle : w.readOutstanding = false) :
    w.counters.outstanding = 0 ∧ w.counters.issued = w.counters.completed + w.counters.failed := by
  have none_out : w.counters.outstanding = 0 := by rw [h.outstanding, idle]; rfl
  have balanced : w.counters.issued =
      w.counters.completed + w.counters.failed + w.counters.outstanding := h.regular.balanced
  exact ⟨none_out, by omega⟩

/-! ## Closing -/

/-- A watch that holds nothing any more. -/
structure Shut (w : Watch) : Prop where
  closed : w.closed = true
  directory : w.directory = none
  signal : w.signal = none
  buffer : w.buffer = none
  idle : w.readOutstanding = false
  unregistered : w.registered = false
  unlinked : w.linked = false

theorem counters_closeDirectory (w : Watch) : w.closeDirectory.counters = w.counters := by
  simp only [closeDirectory]
  split
  · rfl
  · exact counters_raise _ _

theorem alike_closeDirectory (w : Watch) :
    w.closeDirectory.handle = w.handle ∧ w.closeDirectory.closed = w.closed ∧
      w.closeDirectory.readOutstanding = w.readOutstanding ∧
      w.closeDirectory.registered = false ∧ w.closeDirectory.linked = false := by
  simp only [closeDirectory]
  split
  · exact ⟨rfl, rfl, rfl, rfl, rfl⟩
  · unfold raise
    split <;> exact ⟨rfl, rfl, rfl, rfl, rfl⟩

/-- The last part of closing leaves nothing behind, and waits for the read that is under way and
ends it. -/
theorem finishClosing_spec (closed : w.closed = true) :
    w.finishClosing.watch.handle = w.handle ∧ w.finishClosing.watch.Shut ∧
      (w.readOutstanding = true →
        w.finishClosing.signaled = some w.closeDirectory.isSignaled ∧
          ∃ ok, w.finishClosing.watch.counters = w.counters.finish ok) ∧
      (w.readOutstanding = false →
        w.finishClosing.signaled = none ∧ w.finishClosing.watch.counters = w.counters) := by
  obtain ⟨handle, still_closed, reading, worker, link⟩ := alike_closeDirectory w
  have counters : w.closeDirectory.counters = w.counters := counters_closeDirectory w
  have closed : w.closeDirectory.closed = true := still_closed.trans closed
  cases out : w.readOutstanding with
  | true =>
    simp only [finishClosing, reading, out, if_true]
    refine ⟨handle, ⟨closed, rfl, rfl, rfl, rfl, worker, link⟩, fun _ => ⟨trivial, ?_⟩,
      fun h => by simp at h⟩
    rw [← counters]
    exact ⟨_, rfl⟩
  | false =>
    simp only [finishClosing, reading, out, Bool.false_eq_true, if_false]
    exact ⟨handle, ⟨closed, rfl, rfl, rfl, rfl, worker, link⟩, fun h => by simp at h,
      fun _ => ⟨trivial, counters⟩⟩

theorem Counted.finishClosing (h : w.Counted) (closed : w.closed = true) :
    w.finishClosing.watch.Counted := by
  obtain ⟨-, shut, finished, kept⟩ := finishClosing_spec closed
  cases out : w.readOutstanding with
  | true =>
    obtain ⟨-, ok, counters⟩ := finished out
    exact h.finish out counters shut.idle
  | false => exact h.congr (kept out).2 (shut.idle.trans out.symm)

theorem close_of_open (not_closed : w.closed = false) :
    w.close = w.markClosed.finishClosing.watch := by
  rw [close, if_neg (by simp [not_closed])]

/-- Closing leaves nothing behind. -/
theorem close_spec (not_closed : w.closed = false) : w.close.handle = w.handle ∧ w.close.Shut := by
  obtain ⟨handle, shut, -⟩ := finishClosing_spec (w := w.markClosed) rfl
  rw [close_of_open not_closed]
  exact ⟨handle, shut⟩

theorem closed_close (w : Watch) : w.close.closed = true := by
  cases closed : w.closed with
  | true =>
    rw [close, if_pos closed]
    exact closed
  | false => exact (close_spec closed).2.closed

theorem Counted.close (h : w.Counted) (not_closed : w.closed = false) : w.close.Counted := by
  have marked : w.markClosed.Counted := h.congr rfl rfl
  rw [close_of_open not_closed]
  exact marked.finishClosing rfl

/-! ## A watch that is shut stays as it is -/

theorem Shut.deliver (h : w.Shut) (present : RawPath → Bool) (delivery : Delivery) :
    w.deliver present delivery = w := by
  rw [Watch.deliver, h.directory]

theorem Shut.callBack (h : w.Shut) (host : Host) : w.onReadComplete host = ([], w, host) := by
  rw [onReadComplete, h.directory]

theorem Shut.work (h : w.Shut) (host : Host) : w.work host = ([], w, host) := by
  rw [Watch.work, isSignaled, h.signal]
  rfl

theorem Shut.close (h : w.Shut) : w.close = w := by
  rw [Watch.close, if_pos h.closed]

end Watch

end DirWatch
