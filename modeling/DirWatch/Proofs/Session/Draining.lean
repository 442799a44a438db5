import DirWatch.Proofs.Session.Conservation
import DirWatch.Proofs.Session.Shares
import DirWatch.Proofs.Session.Silence
import DirWatch.Proofs.Session.Wakeup
import DirWatch.Proofs.Watch.Draining

/-!
# Draining ends

A worker that finds its signal up leaves less to tell than there was, and nothing but the backend
adds to it. So, as long as the backend delivers nothing, a worker finds its signal up at most as
often as its watch has something to tell (`World.Reachable.wakeUps_le`), and the watch is quiet as
soon as the signal stays down (`World.Reachable.quiet`). `World.draining_ends` puts this together,
for buffers that no record fits into, too.
-/

namespace DirWatch

/-- Tells whether the worker of a watch looks at its signal. -/
def Session.Act.looks (h : Handle) : Session.Act → Bool
  | .work k => k = h
  | _ => false

theorem Session.Act.looks_work (h : Handle) : (Session.Act.work h).looks h = true :=
  decide_eq_true rfl

namespace World

/-- How often the worker of an active watch can find something to tell. -/
def backlog (world : World) (h : Handle) : Nat :=
  (world.session.activeWatch? h).elim 0 Watch.backlog

/-- The signal of an active watch is up. -/
def signaled (world : World) (h : Handle) : Bool :=
  (world.session.activeWatch? h).any Watch.isSignaled

/-- How often the worker of a watch finds its signal up. -/
def wakeUps (h : Handle) (world : World) : List Session.Act → Nat
  | [] => 0
  | act :: rest =>
    (if act.looks h && world.signaled h then 1 else 0) + wakeUps h (world.step act) rest

/-- The worker of a watch has nothing to do: either a read waits for a journal with nothing to tell,
under a signal that is down, or the watch has reported an error and reads no more. -/
def Quiet (world : World) (h : Handle) : Prop :=
  (∃ w d l, world.session.activeWatch? h = some w ∧ w.directory = some d ∧ w.signal = some l ∧
    d.Waits w.signalName l) ∨
  (world.AtRest h ∧ ∃ e, Payload.failure e ∈ world.sentBy h)

/-- What happens in a session while the backend has nothing for a watch, and callbacks run only for
a signal. -/
structure Undelivered (h : Handle) (acts : List Session.Act) : Prop where
  no_delivery : ∀ delivery, Session.Act.deliver h delivery ∉ acts
  strict : ∀ k, Session.Act.callBack k ∉ acts

variable {world : World} {h : Handle} {acts : List Session.Act}

theorem Undelivered.tail {act : Session.Act} (alone : Undelivered h (act :: acts)) :
    Undelivered h acts where
  no_delivery delivery mem := alone.no_delivery delivery (List.mem_cons_of_mem _ mem)
  strict k mem := alone.strict k (List.mem_cons_of_mem _ mem)

theorem Reachable.undelivered (reachable : world.Reachable false) (alone : Undelivered h acts) :
    (world.run acts).Reachable false := reachable.run acts fun _ => alone.strict

theorem Reachable.step (reachable : world.Reachable false) {act : Session.Act}
    (strict : ∀ k, act ≠ .callBack k) : (world.step act).Reachable false := by
  refine reachable.run [act] fun _ k mem => ?_
  exact strict k (List.mem_singleton.mp mem).symm

/-! ## Watches that stay active -/

theorem Accounted.gone_run {loose : Bool} (accounted : world.Accounted loose) (gone : world.Gone h)
    (acts : List Session.Act) (strict : loose = false → ∀ k, Session.Act.callBack k ∉ acts) :
    (world.run acts).Gone h := by
  induction acts generalizing world with
  | nil => exact gone
  | cons act rest ih =>
    have stepped := accounted.step act fun s k named => strict s k (named ▸ List.mem_cons_self)
    exact ih stepped (accounted.gone_step gone act) fun s k mem =>
      strict s k (List.mem_cons_of_mem _ mem)

/-- A watch that is active at the end of a run was so after its first act. -/
theorem Reachable.active_step (reachable : world.Reachable false) {act : Session.Act}
    (active : h ∈ world.session.active) (alone : Undelivered h (act :: acts))
    (still : h ∈ ((world.step act).run acts).session.active) :
    h ∈ (world.step act).session.active := by
  have accounted := reachable.accounted
  have stepped := accounted.step act fun _ k named => alone.strict k (named ▸ List.mem_cons_self)
  by_contra not_active
  obtain ⟨w, mem, rfl⟩ := accounted.known h active
  have number := Nat.lt_of_lt_of_le (accounted.below w mem) (accounted.advances act).numbers
  have gone := stepped.gone_run ⟨not_active, number⟩ acts fun _ => alone.tail.strict
  exact gone.1 still

/-- An active watch that the backend delivers nothing to has no share in what happens, unless its
worker looks at the signal. -/
theorem share_undelivered {w : Watch} {act : Session.Act} (active : w.handle ∈ world.session.active)
    (still : w.handle ∈ (world.step act).session.active)
    (alone : Undelivered w.handle (act :: acts)) :
    world.share w (.act act) =
      if act.looks w.handle then .happening (.work world.host) else .nothing := by
  cases act with
  | deliver k delivery =>
    refine if_neg fun own => ?_
    subst own
    exact alone.no_delivery delivery List.mem_cons_self
  | callBack k => exact absurd List.mem_cons_self (alone.strict k)
  | work k =>
    show (if w.handle = k then _ else _) = if decide (k = w.handle) = true then _ else _
    by_cases own : w.handle = k
    · rw [if_pos own, if_pos (decide_eq_true own.symm)]
    · rw [if_neg own, if_neg (by simpa using Ne.symm own)]
  | unregister k =>
    -- a watch that is closed would not be active any more
    refine if_neg fun own => ?_
    subst own
    have contained : world.session.contains w.handle = true := by
      simpa [Session.contains] using active
    have removed : w.handle ∈ (world.session.unregister w.handle).2.active := still
    rw [Session.unregister, if_pos contained] at removed
    simp at removed
  | teardown => exact absurd still List.not_mem_nil
  | register path includeSubtree filter patterns => rfl
  | watch path => rfl
  | dispatch fails => rfl
  | dispatchNext fails => rfl
  | surroundings host => rfl

/-- Either the worker of an active watch looks at its signal, or the watch stays as it was. -/
theorem Reachable.activeWatch_step (reachable : world.Reachable false) {act : Session.Act}
    {w : Watch} (active : h ∈ world.session.active)
    (still : h ∈ (world.step act).session.active) (alone : Undelivered h (act :: acts))
    (found : world.session.activeWatch? h = some w) :
    (world.step act).session.activeWatch? h =
      some (if act.looks h then (w.work world.host).2.1 else w) := by
  have accounted := reachable.accounted
  have stepped := accounted.step act fun _ k named => alone.strict k (named ▸ List.mem_cons_self)
  have contained : ∀ {world : World}, h ∈ world.session.active →
      world.session.activeWatch? h = world.session.watch? h := by
    intro world active
    rw [Session.activeWatch?, if_pos (by simpa [Session.contains] using active)]
  rw [contained active] at found
  obtain ⟨mem, rfl⟩ := Session.mem_of_watch? found
  have shares := share_undelivered active still alone
  obtain ⟨joined, watches, -⟩ :=
    (world.shared accounted.distinct accounted.below (.act act)).watches
  have later : (w.receive (world.share w (.act act))).2 ∈ (world.step act).session.watches := by
    rw [show (world.step act).session.watches = _ from watches]
    exact List.mem_append_left _ (List.mem_map_of_mem mem)
  have becomes : (w.receive (world.share w (.act act))).2 =
      if act.looks w.handle then (w.work world.host).2.1 else w := by
    rw [shares]
    split <;> rfl
  have handle : (if act.looks w.handle then (w.work world.host).2.1 else w).handle = w.handle := by
    split
    · exact (Watch.alike_happen w (.work world.host)).handle
    · rfl
  rw [becomes] at later
  have looked_up := Session.watch?_of_mem stepped.distinct later
  rw [contained still, ← looked_up, handle]

/-! ## The backlog -/

/-- How an active watch stands. -/
theorem Reachable.standing (reachable : world.Reachable false) (active : h ∈ world.session.active) :
    ∃ w root stage j l, world.session.activeWatch? h = some w ∧ w.handle = h ∧
      w.At root stage j l ∧ l.isUp = stage.isReady ∧
      (stage.isReading = false ↔ ∃ e, Payload.failure e ∈ world.sentBy h) := by
  obtain ⟨w, found, rfl, lives⟩ := reachable.accounted.activeWatch active
  obtain ⟨root, stage, j, l, holds⟩ := lives.holds
  exact ⟨w, root, stage, j, l, found, rfl, holds.stands, holds.signalled rfl, holds.reading⟩

theorem backlog_of_found {w : Watch} (found : world.session.activeWatch? h = some w) :
    world.backlog h = w.backlog ∧ world.signaled h = w.isSignaled := by
  rw [backlog, signaled, found]
  exact ⟨rfl, rfl⟩

/-- What one act does to the backlog of a watch: a worker that finds the signal up leaves less, and
everything else leaves it alone. -/
theorem Reachable.backlog_step (reachable : world.Reachable false) {act : Session.Act}
    (active : h ∈ world.session.active) (still : h ∈ (world.step act).session.active)
    (alone : Undelivered h (act :: acts)) :
    (world.step act).backlog h + (if act.looks h && world.signaled h then 1 else 0) ≤
        world.backlog h ∧
      (world.signaled h = false → (world.step act).signaled h = false) := by
  obtain ⟨w, root, stage, j, l, found, rfl, stands, signalled, -⟩ := reachable.standing active
  have found_then := reachable.activeWatch_step active still alone found
  obtain ⟨before, up⟩ := backlog_of_found found
  obtain ⟨after, up_then⟩ := backlog_of_found found_then
  rw [before, up, after, up_then]
  cases looks : act.looks w.handle with
  | false => exact ⟨Nat.le_refl _, id⟩
  | true =>
    simp only [Bool.true_and, if_true]
    cases is_up : w.isSignaled with
    | true =>
      have ready : stage.isReady = true := by rw [← signalled, ← stands.isSignaled, is_up]
      have less := stands.backlog_work is_up ready world.host
      refine ⟨?_, fun down => by simp at down⟩
      rw [if_pos rfl]
      omega
    | false =>
      have nothing : w.work world.host = ([], w, world.host) := by
        rw [Watch.work, if_neg (by simp [is_up])]
      rw [nothing]
      exact ⟨Nat.le_refl _, fun _ => is_up⟩

/-- A signal that is down stays down. -/
theorem Reachable.signaled_run (reachable : world.Reachable false)
    (active : h ∈ world.session.active) (alone : Undelivered h acts)
    (still : h ∈ (world.run acts).session.active) (down : world.signaled h = false) :
    (world.run acts).signaled h = false := by
  induction acts generalizing world with
  | nil => exact down
  | cons act rest ih =>
    have active_then := reachable.active_step active alone still
    have stepped := reachable.step fun k named => alone.strict k (named ▸ List.mem_cons_self)
    have down_then := (reachable.backlog_step active active_then alone).2 down
    exact ih stepped active_then alone.tail still down_then

/-- Each time that the worker finds the signal up, the backlog gets shorter. -/
theorem Reachable.wakeUps_le (reachable : world.Reachable false)
    (active : h ∈ world.session.active) (alone : Undelivered h acts)
    (still : h ∈ (world.run acts).session.active) :
    (world.run acts).backlog h + wakeUps h world acts ≤ world.backlog h := by
  induction acts generalizing world with
  | nil => exact Nat.le_refl _
  | cons act rest ih =>
    have active_then := reachable.active_step active alone still
    have stepped := reachable.step fun k named => alone.strict k (named ▸ List.mem_cons_self)
    have here := (reachable.backlog_step active active_then alone).1
    have later : ((world.step act).run rest).backlog h + wakeUps h (world.step act) rest ≤
        (world.step act).backlog h := ih stepped active_then alone.tail still
    show ((world.step act).run rest).backlog h + (_ + wakeUps h (world.step act) rest) ≤ _
    omega

/-- A worker that does not find the signal up each time that it looks leaves it down. -/
theorem Reachable.looks_le (reachable : world.Reachable false)
    (active : h ∈ world.session.active) (alone : Undelivered h acts)
    (still : h ∈ (world.run acts).session.active) :
    acts.countP (Session.Act.looks h) ≤ wakeUps h world acts ∨
      (world.run acts).signaled h = false := by
  induction acts generalizing world with
  | nil => exact .inl (Nat.le_refl _)
  | cons act rest ih =>
    cases up : world.signaled h with
    | false => exact .inr (reachable.signaled_run active alone still up)
    | true =>
      have active_then := reachable.active_step active alone still
      have stepped := reachable.step fun k named => alone.strict k (named ▸ List.mem_cons_self)
      rcases ih stepped active_then alone.tail still with enough | down
      · refine .inl ?_
        rw [List.countP_cons, wakeUps, up, Bool.and_true]
        omega
      · exact .inr down

/-! ## Quiet watches -/

/-- The signal of a watch that has nothing to tell is down. -/
theorem Reachable.signaled_of_backlog (reachable : world.Reachable false)
    (active : h ∈ world.session.active) (nothing : world.backlog h = 0) :
    world.signaled h = false := by
  obtain ⟨w, root, stage, j, l, found, -, stands, signalled, -⟩ := reachable.standing active
  obtain ⟨backlog, up⟩ := backlog_of_found found
  rw [up, stands.isSignaled, signalled]
  rw [backlog, stands.backlog, Stage.backlog] at nothing
  cases ready : stage.isReady with
  | false => rfl
  | true =>
    rw [ready, if_pos rfl] at nothing
    omega

/-- An active watch whose signal is down is quiet. -/
theorem Reachable.quiet (reachable : world.Reachable false) (active : h ∈ world.session.active)
    (down : world.signaled h = false) : world.Quiet h := by
  obtain ⟨w, root, stage, j, l, found, rfl, stands, signalled, reading⟩ :=
    reachable.standing active
  obtain ⟨-, up⟩ := backlog_of_found found
  have is_down : l.isUp = false := by rw [← stands.isSignaled, ← up, down]
  cases stage with
  | waiting buffer =>
    refine .inl ⟨w, _, l, found, stands.opened, stands.signal, ⟨buffer, rfl⟩, ?_, is_down⟩
    exact Journal.hasOutput_eq_false.mp stands.silent
  | ready completion =>
    have raised : l.isUp = true := signalled
    rw [is_down] at raised
    contradiction
  | ended =>
    have error := reading.mp rfl
    exact .inr ⟨reachable.atRest active error, error⟩

/-- A worker that finds the signal up leaves the watch active and with less to tell. -/
theorem Reachable.woken (reachable : world.Reachable false) (active : h ∈ world.session.active)
    (up : world.signaled h = true) :
    h ∈ (world.step (.work h)).session.active ∧
      (world.step (.work h)).backlog h < world.backlog h := by
  have alone : Undelivered h [.work h] := by constructor <;> simp
  have still : h ∈ (world.step (.work h)).session.active := by
    show h ∈ (world.session.work world.host h).1.active
    rw [(world.session.work_kept world.host h).2.1]
    exact active
  have less := (reachable.backlog_step active still alone).1
  rw [Session.Act.looks_work, up] at less
  exact ⟨still, less⟩

/-- The worker drains a watch: it looks at the signal and finds it up, until the watch is quiet. -/
theorem Reachable.drains (reachable : world.Reachable false) (active : h ∈ world.session.active) :
    ∃ n ≤ world.backlog h,
      wakeUps h world (List.replicate n (.work h)) = n ∧
      (world.run (List.replicate n (.work h))).Quiet h := by
  induction size : world.backlog h using Nat.strongRecOn generalizing world with
  | _ m ih =>
    cases up : world.signaled h with
    | false => exact ⟨0, Nat.zero_le _, rfl, reachable.quiet active up⟩
    | true =>
      obtain ⟨still, less⟩ := reachable.woken active up
      have stepped : (world.step (.work h)).Reachable false := reachable.step (by simp)
      obtain ⟨n, few, woken, quiet⟩ := ih _ (size ▸ less) stepped still rfl
      refine ⟨n + 1, by omega, ?_, quiet⟩
      rw [List.replicate_succ, wakeUps, woken, Session.Act.looks_work, up]
      exact Nat.add_comm _ _

/-- For every active watch, in every world that can come about when callbacks run only for a signal,
and however large its buffer is: each time that its worker finds the signal up, it leaves the watch
active and with less to tell than there was. As long as the backend delivers nothing to it, whatever
else happens, the worker finds the signal up at most as often as there is something to tell, and
once it has looked that often, the watch is quiet and stays so; it gets there by looks that each
find the signal up. The reason is that a read which ends for changes takes at least one of them out
of the journal, even if its buffer cannot hold it. -/
theorem draining_ends (reachable : world.Reachable false) (active : h ∈ world.session.active) :
    (world.signaled h = true →
      h ∈ (world.step (.work h)).session.active ∧
        (world.step (.work h)).backlog h < world.backlog h) ∧
    (∀ acts, Undelivered h acts → h ∈ (world.run acts).session.active →
      (world.run acts).backlog h + wakeUps h world acts ≤ world.backlog h ∧
        (world.backlog h ≤ acts.countP (Session.Act.looks h) → (world.run acts).Quiet h)) ∧
    (∃ n ≤ world.backlog h,
      wakeUps h world (List.replicate n (.work h)) = n ∧
        (world.run (List.replicate n (.work h))).Quiet h) ∧
    ∀ (j : Journal) (buffer : Buffer), j.Sound → j.pending ≠ [] →
      (j.complete buffer).2.pending.length < j.pending.length := by
  refine ⟨reachable.woken active, ?_, reachable.drains active, ?_⟩
  · intro acts alone still
    have later := reachable.undelivered alone
    have bound := reachable.wakeUps_le active alone still
    refine ⟨bound, fun enough => later.quiet still ?_⟩
    rcases reachable.looks_le active alone still with all | down
    · exact later.signaled_of_backlog still (by omega)
    · exact down
  · intro j buffer sound waits
    exact sound.complete_shortens waits buffer

/-- A watch of the root of an empty file system whose buffer is too small for any record. Three
files come, and then the backend fails: one change was given up by the read that waited, two wait.
-/
def tooSmall : World :=
  (start { bufferSize := 4 } { tree := ⟨[], []⟩ }).run
    [.watch "/", .deliver ⟨1⟩ (created 97), .deliver ⟨1⟩ (created 98), .deliver ⟨1⟩ (created 99),
      .deliver ⟨1⟩ (.error ⟨.pathNotFound, []⟩)]

/-- Four looks are enough for the two changes, the error and the read that has ended, whatever
happens in between. -/
theorem draining_ends_tooSmall :
    tooSmall.Reachable false ∧ ⟨1⟩ ∈ tooSmall.session.active ∧ tooSmall.backlog ⟨1⟩ = 4 ∧
      (tooSmall.step (.work ⟨1⟩)).backlog ⟨1⟩ < 4 ∧
      (∃ n ≤ 4, wakeUps ⟨1⟩ tooSmall (List.replicate n (.work ⟨1⟩)) = n ∧
        (tooSmall.run (List.replicate n (.work ⟨1⟩))).Quiet ⟨1⟩) ∧
      ∀ acts, Undelivered ⟨1⟩ acts → ⟨1⟩ ∈ (tooSmall.run acts).session.active →
        4 ≤ acts.countP (Session.Act.looks ⟨1⟩) → (tooSmall.run acts).Quiet ⟨1⟩ := by
  have reachable : tooSmall.Reachable false := by
    refine ⟨_, _, _, fun _ k => ?_, rfl⟩
    simp
  have ran : (tooSmall.session.active, tooSmall.backlog ⟨1⟩, tooSmall.signaled ⟨1⟩) =
      ([⟨1⟩], 4, true) := by decide +kernel
  obtain ⟨active, others⟩ := Prod.mk.inj ran
  obtain ⟨size, up⟩ := Prod.mk.inj others
  have is_active : ⟨1⟩ ∈ tooSmall.session.active := by
    rw [active]
    exact List.mem_cons_self
  obtain ⟨less, ends, drains, -⟩ := draining_ends reachable is_active
  rw [size] at less ends drains
  refine ⟨reachable, is_active, size, (less up).2, drains, ?_⟩
  intro acts alone still
  exact (ends acts alone still).2

end World

end DirWatch
