import DirWatch.Signal.Worker
import Mathlib.Data.List.Induction

/-!
# Interleavings of a signal and its worker

Those who raise a signal, those who wait for it, the worker and whoever unregisters it take their
turns in any order. `Wait.next` is what one of them does in a turn, `Wait.seen` what shows of it,
and `Wait.history` what shows of many turns. `Wait.Orderly` says when something may show, after what
has been seen before, and `Wait.Follows` that signal and worker stand as the history tells.
`Wait.coherent_run` reads off what this means for every order of turns.
-/

namespace DirWatch.Wait

/-- What can be done in one turn. -/
inductive Act where
  | raise
  /-- Somebody beside the worker waits for the signal. -/
  | wait
  /-- Whoever unregisters cancels the registration. -/
  | cancel
  /-- The worker looks whether it is to end or to start its callback. -/
  | check
  | endCallback
  /-- Whoever unregisters looks whether the worker has ended. -/
  | join

/-- Who consumes a signal. -/
inductive Consumer where
  /-- The worker, which starts its callback at once. -/
  | worker
  | waiter
  deriving DecidableEq

/-- What shows of a turn. -/
inductive Note where
  | raised
  | consumed (consumer : Consumer)
  | cancelled
  /-- The callback has returned. -/
  | returned
  /-- Whoever unregisters has found the worker ended, and goes on. -/
  | unregistered
  deriving DecidableEq

/-! ## Turns -/

def next (w : Wait) : Act → Wait
  | .raise => w.raise
  | .wait => w.consume.2
  | .cancel => w.cancel
  | .check => w.check
  | .endCallback => w.endCallback
  | .join => w

def seen (w : Wait) : Act → List Note
  | .raise => [.raised]
  | .wait => if w.consume.1 then [.consumed .waiter] else []
  | .cancel => [.cancelled]
  | .check => if w.check.started = w.started then [] else [.consumed .worker]
  | .endCallback => if w.worker = .running then [.returned] else []
  | .join => if w.cancelled ∧ w.worker = .ended then [.unregistered] else []

/-- Many turns, one after another. -/
def run (w : Wait) (acts : List Act) : Wait := acts.foldl next w

/-- What shows of many turns, in order. -/
def history (w : Wait) : List Act → List Note
  | [] => []
  | act :: rest => w.seen act ++ (w.next act).history rest

/-- A new signal with a worker that has not looked yet. -/
def registered : Wait := unregistered.register

/-! ## What lasts -/

/-- Something has begun, and nothing since then has ended it. -/
def Lasts (begins ends : Note → Prop) (notes : List Note) : Prop :=
  ∃ before n after, notes = before ++ n :: after ∧ begins n ∧ ∀ m ∈ after, ¬ ends m

/-- The signal has been raised and not been consumed since. -/
def Pending : List Note → Prop := Lasts (· = .raised) fun n => ∃ c, n = .consumed c

/-- A callback has been started and has not returned since. -/
def Running : List Note → Prop := Lasts (· = .consumed .worker) (· = .returned)

section Lasts

variable {begins ends : Note → Prop} {notes : List Note}

theorem not_lasts_nil : ¬ Lasts begins ends [] := by
  rintro ⟨before, n, after, split, -⟩
  simp at split

theorem lasts_snoc {n : Note} :
    Lasts begins ends (notes ++ [n]) ↔ begins n ∨ Lasts begins ends notes ∧ ¬ ends n := by
  constructor
  · rintro ⟨before, m, after, split, begun, lasting⟩
    cases after using List.reverseRecOn with
    | nil =>
      obtain ⟨-, same⟩ := List.append_inj' split rfl
      rw [List.singleton_inj.mp same]
      exact .inl begun
    | append_singleton after last =>
      rw [← List.cons_append, ← List.append_assoc] at split
      obtain ⟨rfl, same⟩ := List.append_inj' split rfl
      rw [List.singleton_inj.mp same]
      obtain ⟨kept, not_last⟩ := List.forall_mem_append.mp lasting
      have still := not_last last (List.mem_singleton_self last)
      exact .inr ⟨⟨before, m, after, rfl, begun, kept⟩, still⟩
  · rintro (begun | ⟨⟨before, m, after, rfl, begun, lasting⟩, goes_on⟩)
    · exact ⟨notes, n, [], rfl, begun, List.forall_mem_nil _⟩
    · refine ⟨before, m, after ++ [n], by rw [List.append_assoc, List.cons_append], begun, ?_⟩
      exact List.forall_mem_append.mpr ⟨lasting, List.forall_mem_singleton.mpr goes_on⟩

/-- What lasts to the end has begun in the second part, or lasts from the first part on. -/
theorem Lasts.of_append {front back : List Note} (h : Lasts begins ends (front ++ back)) :
    (∃ n ∈ back, begins n) ∨ Lasts begins ends front ∧ ∀ n ∈ back, ¬ ends n := by
  induction back using List.reverseRecOn with
  | nil =>
    rw [List.append_nil] at h
    exact .inr ⟨h, List.forall_mem_nil _⟩
  | append_singleton back n ih =>
    rw [← List.append_assoc, lasts_snoc] at h
    rcases h with begun | ⟨lasting, goes_on⟩
    · exact .inl ⟨n, List.mem_append_right back (List.mem_singleton_self n), begun⟩
    · rcases ih lasting with ⟨m, mem, begun⟩ | ⟨lasting, kept⟩
      · exact .inl ⟨m, List.mem_append_left [n] mem, begun⟩
      · exact .inr ⟨lasting,
          List.forall_mem_append.mpr ⟨kept, List.forall_mem_singleton.mpr goes_on⟩⟩

end Lasts

/-! ## Orderly histories -/

/-- Something may show after what has been seen before. -/
def Fits (notes : List Note) : Note → Prop
  | .raised | .cancelled => True
  | .consumed .waiter => Pending notes
  | .consumed .worker => Pending notes ∧ ¬ Running notes ∧ .cancelled ∉ notes
  | .returned => Running notes
  | .unregistered => .cancelled ∈ notes ∧ ¬ Running notes

/-- Everything fits to what has been seen before it. -/
inductive Orderly : List Note → Prop where
  | nil : Orderly []
  | snoc {notes : List Note} {n : Note} (before : Orderly notes) (fits : Fits notes n) :
      Orderly (notes ++ [n])

namespace Orderly

variable {notes before between after : List Note}

/-- What has been seen up to some time is orderly, too. -/
theorem of_append (h : Orderly notes) (split : notes = before ++ after) : Orderly before := by
  induction after using List.reverseRecOn generalizing notes with
  | nil =>
    rw [List.append_nil] at split
    rwa [← split]
  | append_singleton after last ih =>
    rw [← List.append_assoc] at split
    cases h with
    | nil => simp at split
    | snoc earlier fits => exact ih earlier (List.append_inj' split rfl).1

theorem fits (h : Orderly notes) {n : Note} (split : notes = before ++ n :: after) :
    Fits before n := by
  rw [List.append_cons] at split
  have until_then : Orderly (before ++ [n]) := h.of_append split
  generalize seen : before ++ [n] = upto at until_then
  cases until_then with
  | nil => simp at seen
  | snoc earlier fits =>
    obtain ⟨rfl, same⟩ := List.append_inj' seen rfl
    rwa [List.singleton_inj.mp same]

theorem pending_of_consumed {c : Consumer} (h : Orderly notes)
    (split : notes = before ++ .consumed c :: after) : Pending before := by
  have fits := h.fits split
  cases c with
  | worker => exact fits.1
  | waiter => exact fits

theorem raised_between {c d : Consumer} (h : Orderly notes)
    (split : notes = before ++ .consumed c :: between ++ .consumed d :: after) :
    .raised ∈ between := by
  have pending : Pending ((before ++ [.consumed c]) ++ between) := by
    rw [← List.append_cons]
    exact h.pending_of_consumed split
  rcases pending.of_append with ⟨n, mem, rfl⟩ | ⟨lasting, -⟩
  · exact mem
  · -- the signal was down when it had just been consumed
    rcases lasts_snoc.mp lasting with raised | ⟨-, kept⟩
    · contradiction
    · exact absurd ⟨c, rfl⟩ kept

theorem returned_between (h : Orderly notes)
    (split : notes = before ++ .consumed .worker :: between ++ .consumed .worker :: after) :
    .returned ∈ between := by
  obtain ⟨-, idle, -⟩ : Fits _ (.consumed .worker) := h.fits split
  by_contra returned
  exact idle ⟨before, _, between, rfl, rfl, fun m mem same => returned (same ▸ mem)⟩

theorem quiet_of_cancelled (h : Orderly notes) {front : List Note} (split : notes = front ++ after)
    (cancelled : .cancelled ∈ front) : .consumed .worker ∉ after := by
  intro mem
  obtain ⟨between, rest, rfl⟩ := List.append_of_mem mem
  rw [← List.append_assoc] at split
  obtain ⟨-, -, active⟩ : Fits _ (.consumed .worker) := h.fits split
  exact active (List.mem_append_left between cancelled)

/-- When whoever unregisters goes on, no callback runs, and none starts any more. -/
theorem quiet_of_unregistered (h : Orderly notes)
    (split : notes = before ++ .unregistered :: after) :
    ¬ Running before ∧ .consumed .worker ∉ after ∧ .returned ∉ after := by
  obtain ⟨cancelled, idle⟩ : Fits before .unregistered := h.fits split
  have quiet : .consumed .worker ∉ .unregistered :: after := h.quiet_of_cancelled split cancelled
  refine ⟨idle, fun mem => quiet (List.mem_cons_of_mem _ mem), ?_⟩
  intro mem
  obtain ⟨between, rest, rfl⟩ := List.append_of_mem mem
  have fits : Fits (before ++ .unregistered :: between) .returned := by
    apply h.fits
    rw [split, List.append_assoc, List.cons_append]
  -- a callback that returns now would have to run since before, or to have been started since
  rcases Lasts.of_append fits with ⟨n, started, rfl⟩ | ⟨running, -⟩
  · apply quiet
    rw [← List.cons_append]
    exact List.mem_append_left _ started
  · exact idle running

/-- The signal is not consumed more often than it is raised, and it is consumed less often as long
as it is up. -/
theorem consumed_le (h : Orderly notes) :
    notes.count (.consumed .worker) + notes.count (.consumed .waiter) ≤ notes.count .raised ∧
      (Pending notes →
        notes.count (.consumed .worker) + notes.count (.consumed .waiter) <
          notes.count .raised) := by
  induction h with
  | nil => exact ⟨Nat.le_refl 0, fun pending => absurd pending not_lasts_nil⟩
  | @snoc notes n earlier fits ih =>
    obtain ⟨never_more, less⟩ := ih
    simp only [List.count_append, List.count_singleton]
    cases n with
    | raised =>
      have more : notes.count (.consumed .worker) + 0 + (notes.count (.consumed .waiter) + 0) <
          notes.count .raised + 1 := by omega
      exact ⟨Nat.le_of_lt more, fun _ => more⟩
    | consumed c =>
      have down : ¬ Pending (notes ++ [.consumed c]) := by simp [Pending, lasts_snoc]
      refine ⟨?_, fun up => absurd up down⟩
      cases c with
      | worker =>
        have up := less fits.1
        show notes.count _ + 1 + (notes.count _ + 0) ≤ notes.count _ + 0
        omega
      | waiter =>
        have up := less fits
        show notes.count _ + 0 + (notes.count _ + 1) ≤ notes.count _ + 0
        omega
    | cancelled => simpa [Pending, lasts_snoc] using ⟨never_more, less⟩
    | returned => simpa [Pending, lasts_snoc] using ⟨never_more, less⟩
    | unregistered => simpa [Pending, lasts_snoc] using ⟨never_more, less⟩

/-- All callbacks that have been started have returned, but for one that runs. -/
theorem started_eq (h : Orderly notes) :
    (Running notes → notes.count (.consumed .worker) = notes.count .returned + 1) ∧
      (¬ Running notes → notes.count (.consumed .worker) = notes.count .returned) := by
  induction h with
  | nil => exact ⟨fun running => absurd running not_lasts_nil, fun _ => rfl⟩
  | @snoc notes n earlier fits ih =>
    obtain ⟨one_more, as_many⟩ := ih
    simp only [List.count_append, List.count_singleton]
    cases n with
    | consumed c =>
      cases c with
      | worker => simpa [Running, lasts_snoc] using as_many fits.2.1
      | waiter => simpa [Running, lasts_snoc] using ⟨one_more, as_many⟩
    | returned => simpa [Running, lasts_snoc] using one_more fits
    | raised => simpa [Running, lasts_snoc] using ⟨one_more, as_many⟩
    | cancelled => simpa [Running, lasts_snoc] using ⟨one_more, as_many⟩
    | unregistered => simpa [Running, lasts_snoc] using ⟨one_more, as_many⟩

end Orderly

/-! ## Signal and worker stand as the history tells -/

/-- A signal and its worker stand as it follows from what has been seen. -/
structure Follows (w : Wait) (notes : List Note) : Prop where
  orderly : Orderly notes
  latch : w.latch.isUp = true ↔ Pending notes
  running : w.worker = .running ↔ Running notes
  cancelled : w.cancelled = true ↔ .cancelled ∈ notes
  ended : .unregistered ∈ notes → w.worker = .ended
  started : w.started = notes.count (.consumed .worker)

namespace Follows

variable {w : Wait} {notes : List Note}

theorem start : Follows registered [] where
  orderly := .nil
  latch := ⟨fun up => Bool.noConfusion up, fun pending => absurd pending not_lasts_nil⟩
  running := ⟨fun runs => WorkerPhase.noConfusion runs, fun running => absurd running not_lasts_nil⟩
  cancelled := ⟨fun yes => Bool.noConfusion yes, fun mem => absurd mem List.not_mem_nil⟩
  ended mem := absurd mem List.not_mem_nil
  started := rfl

theorem raise (h : Follows w notes) : Follows w.raise (notes ++ [.raised]) where
  orderly := h.orderly.snoc trivial
  latch := by simp [Wait.raise, Latch.raise, Pending, lasts_snoc]
  running := by simpa [Wait.raise, Running, lasts_snoc] using h.running
  cancelled := by simpa [Wait.raise] using h.cancelled
  ended mem := h.ended (by simpa using mem)
  started := by simpa [Wait.raise] using h.started

theorem wait (h : Follows w notes) (up : w.latch.isUp = true) :
    Follows w.consume.2 (notes ++ [.consumed .waiter]) where
  orderly := h.orderly.snoc (h.latch.mp up)
  latch := by simp [consume, Latch.consume, Latch.down, Pending, lasts_snoc]
  running := by simpa [consume, Running, lasts_snoc] using h.running
  cancelled := by simpa [consume] using h.cancelled
  ended mem := h.ended (by simpa using mem)
  started := by simpa [consume] using h.started

theorem cancel (h : Follows w notes) : Follows w.cancel (notes ++ [.cancelled]) where
  orderly := h.orderly.snoc trivial
  latch := by simpa [Wait.cancel, Pending, lasts_snoc] using h.latch
  running := by simpa [Wait.cancel, Running, lasts_snoc] using h.running
  cancelled := by simp [Wait.cancel]
  ended mem := h.ended (by simpa using mem)
  started := by simpa [Wait.cancel] using h.started

/-- A worker that finds its registration cancelled ends, whether the signal is up or not. -/
theorem leave (h : Follows w notes) (parked : w.worker = .parked) :
    Follows { w with worker := .ended } notes where
  orderly := h.orderly
  latch := h.latch
  running := by simpa [parked] using h.running
  cancelled := h.cancelled
  ended _ := rfl
  started := h.started

theorem callBack (h : Follows w notes) (parked : w.worker = .parked) (active : w.cancelled = false)
    (up : w.latch.isUp = true) :
    Follows { w with latch := .down, worker := .running, started := w.started + 1 }
      (notes ++ [.consumed .worker]) where
  orderly := by
    have idle : ¬ Running notes := by
      rw [← h.running, parked]
      decide
    have wanted : .cancelled ∉ notes := by
      rw [← h.cancelled, active]
      decide
    exact h.orderly.snoc ⟨h.latch.mp up, idle, wanted⟩
  latch := by simp [Latch.down, Pending, lasts_snoc]
  running := by simp [Running, lasts_snoc]
  cancelled := by simpa using h.cancelled
  ended mem := by
    have ended := h.ended (by simpa using mem)
    rw [parked] at ended
    contradiction
  started := by simp [h.started]

theorem endCallback (h : Follows w notes) (runs : w.worker = .running) :
    Follows { w with worker := .parked } (notes ++ [.returned]) where
  orderly := h.orderly.snoc (h.running.mp runs)
  latch := by simpa [Pending, lasts_snoc] using h.latch
  running := by simp [Running, lasts_snoc]
  cancelled := by simpa using h.cancelled
  ended mem := by
    have ended := h.ended (by simpa using mem)
    rw [runs] at ended
    contradiction
  started := by simpa using h.started

theorem join (h : Follows w notes) (cancelled : w.cancelled = true) (ended : w.worker = .ended) :
    Follows w (notes ++ [.unregistered]) where
  orderly := by
    have idle : ¬ Running notes := by
      rw [← h.running, ended]
      decide
    exact h.orderly.snoc ⟨h.cancelled.mp cancelled, idle⟩
  latch := by simpa [Pending, lasts_snoc] using h.latch
  running := by simpa [Running, lasts_snoc] using h.running
  cancelled := by simpa using h.cancelled
  ended _ := ended
  started := by simpa using h.started

/-- Whoever takes a turn, signal and worker still stand as the history tells. -/
theorem next (h : Follows w notes) (act : Act) : Follows (w.next act) (notes ++ w.seen act) := by
  cases act with
  | raise => exact h.raise
  | wait =>
    show Follows w.consume.2 (notes ++ if w.latch.isUp then [.consumed .waiter] else [])
    by_cases up : w.latch.isUp = true
    · rw [if_pos up]
      exact h.wait up
    · have same : w.consume.2 = w := by
        obtain ⟨⟨isUp⟩, cancelled, worker, started⟩ := w
        obtain rfl : isUp = false := Bool.eq_false_iff.mpr up
        rfl
      rwa [same, if_neg up, List.append_nil]
  | cancel => exact h.cancel
  | check =>
    show Follows w.check (notes ++ if w.check.started = w.started then [] else [.consumed .worker])
    cases phase : w.worker with
    | parked =>
      by_cases cancelled : w.cancelled = true
      · have ends : w.check = { w with worker := .ended } := by simp [check, phase, cancelled]
        rw [ends, if_pos rfl, List.append_nil]
        exact h.leave phase
      · by_cases up : w.latch.isUp = true
        · have starts : w.check =
              { w with latch := .down, worker := .running, started := w.started + 1 } := by
            simp [check, phase, cancelled, Latch.consume, up]
          rw [starts, if_neg (Nat.succ_ne_self _)]
          exact h.callBack phase (Bool.eq_false_iff.mpr cancelled) up
        · have waits : w.check = w := by simp [check, phase, cancelled, Latch.consume, up]
          rwa [waits, if_pos rfl, List.append_nil]
    | running =>
      have busy : w.check = w := by simp [check, phase]
      rwa [busy, if_pos rfl, List.append_nil]
    | ended =>
      have gone : w.check = w := by simp [check, phase]
      rwa [gone, if_pos rfl, List.append_nil]
  | endCallback =>
    show Follows w.endCallback (notes ++ if w.worker = .running then [.returned] else [])
    by_cases runs : w.worker = .running
    · have returns : w.endCallback = { w with worker := .parked } := by
        simp [Wait.endCallback, runs]
      rw [returns, if_pos runs]
      exact h.endCallback runs
    · have same : w.endCallback = w := by
        unfold Wait.endCallback
        split
        · contradiction
        · rfl
      rwa [same, if_neg runs, List.append_nil]
  | join =>
    show Follows w (notes ++ if w.cancelled ∧ w.worker = .ended then [.unregistered] else [])
    by_cases done : w.cancelled = true ∧ w.worker = .ended
    · rw [if_pos done]
      exact h.join done.1 done.2
    · rwa [if_neg done, List.append_nil]

theorem run (h : Follows w notes) (acts : List Act) :
    Follows (w.run acts) (notes ++ w.history acts) := by
  induction acts generalizing w notes with
  | nil =>
    rw [history, List.append_nil]
    exact h
  | cons act rest ih =>
    rw [history, ← List.append_assoc]
    exact ih (h.next act)

end Follows

/-! ## All together -/

/-- What holds of a signal and its worker at any time, after what has been seen of them. -/
structure Coherent (w : Wait) (notes : List Note) : Prop where
  /-- Between any two consumptions the signal is raised. -/
  raised_between {before between after : List Note} {c d : Consumer} :
    notes = before ++ .consumed c :: between ++ .consumed d :: after → .raised ∈ between
  /-- Callbacks and successful waits together are no more than there were raises. -/
  consumed_le : w.started + notes.count (.consumed .waiter) ≤ notes.count .raised
  /-- A callback starts with each consumption by the worker. -/
  started_eq : w.started = notes.count (.consumed .worker)
  /-- A callback does not start before the last one has returned. -/
  returned_between {before between after : List Note} :
    notes = before ++ .consumed .worker :: between ++ .consumed .worker :: after →
      .returned ∈ between
  /-- All callbacks have returned, but for one if the worker runs it. -/
  running : notes.count (.consumed .worker) =
    notes.count .returned + if w.worker = .running then 1 else 0
  /-- No callback starts once the registration is cancelled. -/
  cancelled {before after : List Note} :
    notes = before ++ .cancelled :: after → .consumed .worker ∉ after
  /-- When whoever unregisters goes on, every callback has returned; none starts any more, and the
  worker has ended for good. -/
  unregistered {before after : List Note} :
    notes = before ++ .unregistered :: after →
      before.count (.consumed .worker) = before.count .returned ∧ .consumed .worker ∉ after ∧
        .returned ∉ after ∧ w.worker = .ended
  /-- The signal is up just if it has not been consumed since it was raised last, also after the
  registration has been cancelled; and just then it can be consumed by who waits for it. -/
  latched : w.latch.isUp = true ↔
    ∃ before after, notes = before ++ .raised :: after ∧ ∀ c, .consumed c ∉ after
  consumable : w.seen .wait = [.consumed .waiter] ↔ w.latch.isUp = true

theorem Follows.coherent {w : Wait} {notes : List Note} (h : Follows w notes) :
    Coherent w notes where
  raised_between := h.orderly.raised_between
  consumed_le := by
    rw [h.started]
    exact h.orderly.consumed_le.1
  started_eq := h.started
  returned_between := h.orderly.returned_between
  running := by
    obtain ⟨one_more, as_many⟩ := h.orderly.started_eq
    by_cases runs : w.worker = .running
    · rw [if_pos runs]
      exact one_more (h.running.mp runs)
    · rw [if_neg runs]
      exact as_many fun running => runs (h.running.mpr running)
  cancelled split := by
    rw [List.append_cons] at split
    exact h.orderly.quiet_of_cancelled split (List.mem_append_right _ (List.mem_singleton_self _))
  unregistered {before after} split := by
    obtain ⟨idle, no_start, no_return⟩ := h.orderly.quiet_of_unregistered split
    have mem : .unregistered ∈ notes := split ▸ List.mem_append_right before List.mem_cons_self
    exact ⟨(h.orderly.of_append split).started_eq.2 idle, no_start, no_return, h.ended mem⟩
  latched := by
    rw [h.latch]
    constructor
    · rintro ⟨before, n, after, split, rfl, lasting⟩
      exact ⟨before, after, split, fun c mem => lasting _ mem ⟨c, rfl⟩⟩
    · rintro ⟨before, after, split, lasting⟩
      refine ⟨before, _, after, split, rfl, ?_⟩
      rintro m mem ⟨c, rfl⟩
      exact lasting c mem
  consumable := by
    show (if w.latch.isUp then [Note.consumed .waiter] else []) = _ ↔ _
    by_cases up : w.latch.isUp = true
    · simp [up]
    · simp [up]

/-- Whoever unregisters finds the worker ended after these turns, if there are no others in between.
-/
theorem unregister_spec (w : Wait) :
    w.run [.cancel, .endCallback, .check, .endCallback, .check] = w.unregister ∧
      w.unregister.seen .join = [.unregistered] := by
  refine ⟨rfl, if_pos ⟨?_, w.unregister_worker⟩⟩
  obtain ⟨latch, cancelled, worker, started⟩ := w
  cases worker <;> rfl

/-- In whatever order those who raise a signal, those who wait for it, its worker and whoever
unregisters it take their turns, what is seen of them is coherent; and whoever unregisters can go
on after a few more turns. -/
theorem coherent_run (acts : List Act) :
    Coherent (registered.run acts) (registered.history acts) ∧
      registered.run (acts ++ [.cancel, .endCallback, .check, .endCallback, .check]) =
        (registered.run acts).unregister ∧
      (registered.run acts).unregister.seen .join = [.unregistered] := by
  obtain ⟨turns, ended⟩ := (registered.run acts).unregister_spec
  refine ⟨(Follows.start.run acts).coherent, ?_, ended⟩
  rw [← turns]
  exact List.foldl_append

end DirWatch.Wait
