import DirWatch.Proofs.Session.Messages

/-!
# No wake-up is lost

A worker runs its callback only when its signal is up. `World.no_lost_wakeup` says that this is
enough: until a watch has reported an error, it either has a read that waits for a journal with
nothing to tell, or a completion and a signal that is up, and never both. So nothing that a watch
has to tell stays where nobody is woken for it, and nobody is woken for nothing.
-/

namespace DirWatch

/-- A read waits under this signal for a journal with nothing to tell, and the signal is down. -/
structure Directory.Waits (d : Directory) (name : SignalName) (l : Latch) : Prop where
  armed : ∃ buffer, d.slot = .armed buffer name
  nothing_to_tell : d.journal.pending = [] ∧ d.journal.overflowed = false ∧ d.journal.failure = none
  down : l.isUp = false

/-- A completion waits to be taken, and the signal is up. -/
structure Directory.Rings (d : Directory) (l : Latch) : Prop where
  finished : ∃ completion, d.slot = .finished completion
  up : l.isUp = true

/-- There is no read and no completion, and the signal is down. -/
structure Directory.Rests (d : Directory) (l : Latch) : Prop where
  idle : d.slot = .idle
  down : l.isUp = false

namespace World

/-- An active watch whose reads have ended. -/
def AtRest (world : World) (h : Handle) : Prop :=
  ∃ w d l, world.session.activeWatch? h = some w ∧ w.directory = some d ∧ w.signal = some l ∧
    d.Rests l

/-- A watch that has reported an error is at rest. -/
theorem Reachable.atRest {world : World} (reachable : world.Reachable false) {h : Handle}
    (active : h ∈ world.session.active) (error : ∃ e, Payload.failure e ∈ world.sentBy h) :
    world.AtRest h := by
  obtain ⟨w, found, rfl, lives⟩ := reachable.accounted.activeWatch active
  obtain ⟨root, stage, j, l, holds⟩ := lives.holds
  have signalled := holds.signalled rfl
  have ended : stage.isReading = false := holds.reading.mpr error
  refine ⟨w, w.directoryAt root stage j, l, found, holds.stands.opened, holds.stands.signal, ?_⟩
  cases stage with
  | ended => exact ⟨rfl, signalled⟩
  | waiting buffer => simp [Stage.isReading] at ended
  | ready completion => simp [Stage.isReading] at ended

/-- For every active watch, in every world that can come about when callbacks run only for a signal:
as long as no error has been reported, either a read waits and nothing else does, or a completion is
ready and the signal is up; once an error has been reported, the watch is at rest for as long as it
is active. A callback that the signal starts finds a completion. -/
theorem no_lost_wakeup {world : World} (reachable : world.Reachable false) {h : Handle}
    (active : h ∈ world.session.active) :
    (∃ w d l, world.session.activeWatch? h = some w ∧ w.directory = some d ∧ w.signal = some l ∧
      ((∀ e, Payload.failure e ∉ world.sentBy h) →
        (d.Waits w.signalName l ∨ d.Rings l) ∧ ¬ (d.Waits w.signalName l ∧ d.Rings l)) ∧
      (l.isUp = true → ∃ completion, d.take.1 = some completion)) ∧
    ((∃ e, Payload.failure e ∈ world.sentBy h) →
      ∀ acts, (∀ k, Session.Act.callBack k ∉ acts) → h ∈ (world.run acts).session.active →
        (world.run acts).AtRest h) := by
  refine ⟨?_, fun ⟨e, he⟩ acts strict still_active => ?_⟩
  · obtain ⟨w, found, rfl, lives⟩ := reachable.accounted.activeWatch active
    obtain ⟨root, stage, j, l, holds⟩ := lives.holds
    have signalled := holds.signalled rfl
    refine ⟨w, w.directoryAt root stage j, l, found, holds.stands.opened, holds.stands.signal,
      fun no_error => ?_, fun up => ?_⟩
    · have reading : stage.isReading = true := by
        by_contra not_reading
        obtain ⟨e, he⟩ := holds.reading.mp (by simpa using not_reading)
        exact no_error e he
      refine ⟨?_, fun ⟨waits, rings⟩ => by simpa [waits.down] using rings.up⟩
      cases stage with
      | waiting buffer =>
        exact .inl ⟨⟨buffer, rfl⟩, Journal.hasOutput_eq_false.mp holds.stands.silent, signalled⟩
      | ready completion => exact .inr ⟨⟨completion, rfl⟩, signalled⟩
      | ended => simp [Stage.isReading] at reading
    · have is_ready : stage.isReady = true := signalled.symm.trans up
      cases stage with
      | ready completion => exact ⟨completion, rfl⟩
      | waiting buffer => simp [Stage.isReady] at is_ready
      | ended => simp [Stage.isReady] at is_ready
  · -- a report stays sent, so that the watch is at rest in every later world, too
    have later := reachable.run acts fun _ => strict
    obtain ⟨more, sent⟩ := world.sentBy_run acts h
    refine later.atRest still_active ⟨e, ?_⟩
    rw [sent]
    exact List.mem_append_left _ he

/-- Two watches of the root of an empty file system. The backend fails the first one, which reports
it; the second one has a completion that nobody has taken. -/
def oneFailed : World :=
  (start { bufferSize := 16 } { tree := ⟨[], []⟩ }).run
    [.watch "/", .watch "/", .deliver ⟨1⟩ (.error ⟨.pathNotFound, []⟩), .work ⟨1⟩,
      .deliver ⟨2⟩ (.ok ⟨.create .file, [[RawPath.slash, 97]], false⟩)]

theorem no_lost_wakeup_oneFailed :
    oneFailed.Reachable false ∧ ⟨2⟩ ∈ oneFailed.session.active ∧
      (∃ w d l, oneFailed.session.activeWatch? ⟨2⟩ = some w ∧ w.directory = some d ∧
        w.signal = some l ∧
        ((∀ e, Payload.failure e ∉ oneFailed.sentBy ⟨2⟩) →
          (d.Waits w.signalName l ∨ d.Rings l) ∧ ¬ (d.Waits w.signalName l ∧ d.Rings l)) ∧
        (l.isUp = true → ∃ completion, d.take.1 = some completion)) ∧
      ⟨1⟩ ∈ oneFailed.session.active ∧ (∃ e, Payload.failure e ∈ oneFailed.sentBy ⟨1⟩) ∧
      oneFailed.AtRest ⟨1⟩ := by
  have reachable : oneFailed.Reachable false := by
    refine ⟨_, _, _, fun _ k => ?_, rfl⟩
    simp
  have ran : (oneFailed.session.active, oneFailed.sentBy ⟨1⟩) =
      ([⟨1⟩, ⟨2⟩], [.failure (.raised .notFound "watched path not found")]) := by decide +kernel
  obtain ⟨active, reported⟩ := Prod.mk.inj ran
  have first : ⟨1⟩ ∈ oneFailed.session.active := by simp [active]
  have second : ⟨2⟩ ∈ oneFailed.session.active := by simp [active]
  have error : ∃ e, Payload.failure e ∈ oneFailed.sentBy ⟨1⟩ :=
    ⟨_, by rw [reported]; exact List.mem_cons_self⟩
  exact ⟨reachable, second, (no_lost_wakeup reachable second).1, first, error,
    (no_lost_wakeup reachable first).2 error [] (fun k => List.not_mem_nil) first⟩

end World

end DirWatch
