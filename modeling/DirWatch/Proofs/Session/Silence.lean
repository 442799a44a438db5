import DirWatch.Proofs.Session.Messages
import Mathlib.Data.List.Basic

/-!
# Silence

A watch that has been unregistered reports nothing any more, and the handler is told nothing of it;
a session that has been torn down is silent altogether (`World.silence_after_close`). What is handed
to the handler comes from watches that are active.
-/

namespace DirWatch

/-- An event that is worth telling: an error or some changes. -/
def Event.Tells (e : Event) : Prop :=
  (∃ error, e.payload = .failure error) ∨ ∃ c cs, e.payload = .changes (c :: cs)

theorem Event.tells_of_status {e : Event} (something : e.status ≠ .noChanges) : e.Tells := by
  obtain ⟨handle, payload⟩ := e
  match payload with
  | .failure error => exact .inl ⟨error, rfl⟩
  | .changes (c :: cs) => exact .inr ⟨c, cs, rfl⟩
  | .changes [] => exact absurd rfl something

namespace World

variable {loose : Bool} {world : World} {h : Handle}

/-! ## Who is heard -/

/-- Messages of watches that are not active come too late. -/
theorem Accounted.active_of_in_time (accounted : world.Accounted loose) {m : Message}
    (in_time : world.session.isEnded m = false) : m.handle ∈ world.session.active := by
  by_contra not_active
  have too_late : world.session.isEnded m = true := by
    rw [Session.isEnded]
    cases found : world.session.watch? m.handle with
    | none => simp
    | some w =>
      obtain ⟨mem, named⟩ := Session.mem_of_watch? found
      have closed : w.closed = true := (accounted.ended w mem (named ▸ not_active)).1.closed
      simp [closed]
  rw [too_late] at in_time
  simp at in_time

/-- The handler is told of active watches only, and each time something. -/
theorem Accounted.handed (accounted : world.Accounted loose) {act : Session.Act} {e : Event}
    (he : e ∈ world.handed act) : e.handle ∈ world.session.active ∧ e.Tells := by
  obtain ⟨fails, he⟩ : ∃ fails, e ∈ (world.session.dispatchPending fails).1.seen := by
    cases act with
    | dispatch fails => exact ⟨fails, he⟩
    | dispatchNext fails => exact ⟨fails, he⟩
    | _ => exact absurd he List.not_mem_nil
  rw [Session.dispatchPending, seen_run, List.mem_filter] at he
  have told : world.session.isEnded e = false ∧ e.status ≠ .noChanges := by simpa using he.2
  exact ⟨accounted.active_of_in_time told.1, Event.tells_of_status told.2⟩

/-- Watches that are not active report nothing. -/
theorem Accounted.reported (accounted : world.Accounted loose) {act : Session.Act} {m : Message}
    (hm : m ∈ world.reported act) : m.handle ∈ world.session.active := by
  -- a watch that is not active is shut, and its worker and its callback find nothing
  have silent : ∀ k w, world.session.watch? k = some w → k ∉ world.session.active →
      (w.work world.host).1 = [] ∧ (w.onReadComplete world.host).1 = [] := by
    intro k w found not_active
    obtain ⟨mem, rfl⟩ := Session.mem_of_watch? found
    obtain ⟨shut, -⟩ := accounted.ended w mem not_active
    rw [shut.work, shut.callBack]
    exact ⟨rfl, rfl⟩
  by_contra not_active
  cases act with
  | work k =>
    obtain ⟨w, found, reports⟩ := List.mem_flatMap.mp hm
    obtain ⟨p, hp, rfl⟩ := List.mem_map.mp reports
    rw [(silent k w (Option.mem_toList.mp found) not_active).1] at hp
    simp at hp
  | callBack k =>
    obtain ⟨w, found, reports⟩ := List.mem_flatMap.mp hm
    obtain ⟨p, hp, rfl⟩ := List.mem_map.mp reports
    rw [(silent k w (Option.mem_toList.mp found) not_active).2] at hp
    simp at hp
  | _ => exact absurd hm List.not_mem_nil

/-! ## What no act brings back -/

/-- What has ended stays ended: no act gives a number again, makes a watch active but a new one, or
opens a session that has been torn down. -/
structure Advances (world world' : World) : Prop where
  numbers : world.host.nextHandle ≤ world'.host.nextHandle
  active : ∀ k ∈ world'.session.active, k ∈ world.session.active ∨ k = ⟨world.host.nextHandle⟩
  torn : world'.session.tornDown = world.session.tornDown ∨ world'.session.tornDown = true

theorem Advances.still {world' : World} (numbers : world'.host.nextHandle = world.host.nextHandle)
    (active : world'.session.active = world.session.active)
    (torn : world'.session.tornDown = world.session.tornDown) : world.Advances world' where
  numbers := Nat.le_of_eq numbers.symm
  active _ hk := .inl (active ▸ hk)
  torn := .inl torn

theorem advances_register (world : World) (path : String) (includeSubtree : Bool) (filter : Filter)
    (patterns : List String) :
    world.Advances (world.enroll
      (world.session.register world.host path includeSubtree filter patterns)) := by
  obtain ⟨-, -, torn, numbers, active⟩ :=
    world.session.register_kept world.host path includeSubtree filter patterns
  have enrolls : ∀ outcome : Except RegisterError Handle × Session × Host,
      (world.enroll outcome).session = outcome.2.1 ∧ (world.enroll outcome).host = outcome.2.2 := by
    intro outcome
    rw [enroll.eq_def]
    split <;> exact ⟨rfl, rfl⟩
  obtain ⟨session, host⟩ :=
    enrolls (world.session.register world.host path includeSubtree filter patterns)
  refine ⟨by rw [host]; exact numbers, ?_, .inl (by rw [session]; exact torn)⟩
  intro k hk
  rw [session] at hk
  rcases active with same | added
  · exact .inl (same ▸ hk)
  · rw [added] at hk
    exact (List.mem_append.mp hk).imp id List.mem_singleton.mp

/-- Workers and callbacks leave the host alone. -/
theorem Accounted.same_host (accounted : world.Accounted loose) (k : Handle) :
    (world.session.work world.host k).2 = world.host ∧
      (world.session.callBack world.host k).2 = world.host := by
  rw [Session.work, Session.callBack]
  cases found : world.session.watch? k with
  | none => exact ⟨rfl, rfl⟩
  | some w =>
    obtain ⟨mem, rfl⟩ := Session.mem_of_watch? found
    obtain ⟨called, worked⟩ := accounted.keeps_host mem world.host
    exact ⟨worked, called⟩

theorem Accounted.advances (accounted : world.Accounted loose) (act : Session.Act) :
    world.Advances (world.step act) := by
  cases act with
  | register path includeSubtree filter patterns =>
    exact world.advances_register path includeSubtree filter patterns
  | watch path => exact world.advances_register path _ _ _
  | unregister k =>
    show world.Advances { world with session := (world.session.unregister k).2 }
    rw [Session.unregister]
    split
    · exact ⟨Nat.le_refl _, fun a ha => .inl (List.mem_of_mem_filter ha), .inl rfl⟩
    · exact .still rfl rfl rfl
  | teardown => exact ⟨Nat.le_refl _, fun a ha => absurd ha List.not_mem_nil, .inr rfl⟩
  | deliver k delivery => exact .still rfl rfl rfl
  | work k =>
    obtain ⟨-, active, torn⟩ := world.session.work_kept world.host k
    exact .still (congrArg Host.nextHandle (accounted.same_host k).1) active torn
  | callBack k =>
    obtain ⟨-, active, torn⟩ := world.session.callBack_kept world.host k
    exact .still (congrArg Host.nextHandle (accounted.same_host k).2) active torn
  | dispatch fails => exact .still rfl rfl rfl
  | dispatchNext fails =>
    rcases world.session.dispatchNext_cases fails with ⟨-, dispatches⟩ | dispatches
    · rw [World.step, dispatches]
      exact .still rfl rfl rfl
    · rw [World.step, dispatches]
      exact .still rfl rfl rfl
  | surroundings host => exact ⟨Nat.le_max_right _ _, fun k hk => .inl hk, .inl rfl⟩

/-! ## Watches that are gone -/

/-- A watch was registered once and is not active any more. -/
def Gone (world : World) (h : Handle) : Prop :=
  h ∉ world.session.active ∧ h.number < world.host.nextHandle

theorem Accounted.gone_unregister (accounted : world.Accounted loose)
    (unregistered : (world.session.unregister h).1 = .ok ()) :
    (world.step (.unregister h)).Gone h := by
  have contained : world.session.contains h = true := by
    by_contra unknown
    simp [Session.unregister, unknown] at unregistered
  have active : h ∈ world.session.active := by simpa [Session.contains] using contained
  obtain ⟨w, hw, rfl⟩ := accounted.known h active
  refine ⟨?_, accounted.below w hw⟩
  show w.handle ∉ (world.session.unregister w.handle).2.active
  rw [Session.unregister, if_pos contained]
  intro still
  simp at still

/-- A watch that is gone does not come back. -/
theorem Accounted.gone_step (accounted : world.Accounted loose) (gone : world.Gone h)
    (act : Session.Act) : (world.step act).Gone h := by
  have advances := accounted.advances act
  refine ⟨?_, Nat.lt_of_lt_of_le gone.2 advances.numbers⟩
  intro again
  rcases advances.active h again with before | next
  · exact gone.1 before
  · have below := gone.2
    rw [next] at below
    exact Nat.lt_irrefl _ below

/-- A watch that is gone is not heard of. -/
theorem Accounted.silent_step (accounted : world.Accounted loose) (gone : world.Gone h)
    (act : Session.Act) :
    (world.step act).sentBy h = world.sentBy h ∧ (world.step act).seenBy h = world.seenBy h := by
  obtain ⟨sent, -, seen, -⟩ := world.moves act
  have none_reported : payloads h (world.reported act) = [] := by
    apply payloads_eq_nil_iff.mpr
    intro m hm named
    exact gone.1 (named ▸ accounted.reported hm)
  have none_handed : payloads h (world.handed act) = [] := by
    apply payloads_eq_nil_iff.mpr
    intro e he named
    exact gone.1 (named ▸ (accounted.handed he).1)
  constructor
  · rw [sentBy, sent, payloads_append, none_reported, List.append_nil]
    rfl
  · rw [seenBy, seen, payloads_append, none_handed, List.append_nil]
    rfl

/-- A watch that is gone is not heard of any more. -/
theorem Accounted.silent_run (accounted : world.Accounted true) (gone : world.Gone h)
    (acts : List Session.Act) :
    (world.run acts).sentBy h = world.sentBy h ∧ (world.run acts).seenBy h = world.seenBy h := by
  induction acts generalizing world with
  | nil => exact ⟨rfl, rfl⟩
  | cons act rest ih =>
    obtain ⟨sent, seen⟩ := accounted.silent_step gone act
    have stepped := accounted.step act fun strict => by simp at strict
    obtain ⟨sent_then, seen_then⟩ := ih stepped (accounted.gone_step gone act)
    exact ⟨sent_then.trans sent, seen_then.trans seen⟩

/-! ## Sessions that have ended -/

/-- A session has been torn down, and nothing is queued. -/
def Ended (world : World) : Prop :=
  world.session.tornDown = true ∧ world.session.queue = []

/-- Nothing happens in a session that has ended. -/
theorem Accounted.ended_step (accounted : world.Accounted loose) (ended : world.Ended)
    (act : Session.Act) :
    (world.step act).Ended ∧ (world.step act).sent = world.sent ∧
      (world.step act).seen = world.seen := by
  have none_active : world.session.active = [] := accounted.torn ended.1
  have none_reported : world.reported act = [] := by
    apply List.eq_nil_iff_forall_not_mem.mpr
    intro m hm
    have active := accounted.reported hm
    simp [none_active] at active
  have none_handed : world.handed act = [] := by
    apply List.eq_nil_iff_forall_not_mem.mpr
    intro e he
    have active := (accounted.handed he).1
    simp [none_active] at active
  obtain ⟨sent, queue, seen, -⟩ := world.moves act
  refine ⟨⟨?_, ?_⟩, ?_, ?_⟩
  · rcases (accounted.advances act).torn with same | torn
    · exact same.trans ended.1
    · exact torn
  · rw [none_reported, ended.2, List.append_nil] at queue
    exact (List.append_eq_nil_iff.mp queue.symm).2
  · rw [sent, none_reported, List.append_nil]
  · rw [seen, none_handed, List.append_nil]

theorem Accounted.ended_run (accounted : world.Accounted true) (ended : world.Ended)
    (acts : List Session.Act) :
    (world.run acts).Ended ∧ (world.run acts).sent = world.sent ∧
      (world.run acts).seen = world.seen := by
  induction acts generalizing world with
  | nil => exact ⟨ended, rfl, rfl⟩
  | cons act rest ih =>
    obtain ⟨still, sent, seen⟩ := accounted.ended_step ended act
    have stepped := accounted.step act fun strict => by simp at strict
    obtain ⟨ended_then, sent_then, seen_then⟩ := ih stepped still
    exact ⟨ended_then, sent_then.trans sent, seen_then.trans seen⟩

/-- A session that has ended takes no watch. -/
theorem Ended.refuses (ended : world.Ended) (path : String) (includeSubtree : Bool)
    (filter : Filter) (patterns : List String) :
    (world.session.register world.host path includeSubtree filter patterns).1 =
      .error (.refused .sessionClosed) := by
  rw [Session.register, if_pos ended.1]

/-- In every world that can come about: a watch that is unregistered reports nothing more, and the
handler is told nothing more of it; a session that is torn down has nothing in its queue, reports
nothing, tells the handler nothing and takes no watch, ever after; and whatever happens, the handler
is told of active watches only, each time of an error or of some changes. -/
theorem silence_after_close (reachable : world.Reachable true) :
    (∀ h, (world.session.unregister h).1 = .ok () → ∀ acts,
      let later := (world.step (.unregister h)).run acts
      later.sentBy h = world.sentBy h ∧ later.seenBy h = world.seenBy h) ∧
    (∀ acts,
      let later := (world.step .teardown).run acts
      later.session.queue = [] ∧ later.sent = world.sent ∧ later.seen = world.seen ∧
        (∀ path includeSubtree filter patterns,
          (later.session.register later.host path includeSubtree filter patterns).1 =
            .error (.refused .sessionClosed)) ∧
        ∀ path, (later.session.watch later.host path).1 = .error (.refused .sessionClosed)) ∧
    ∀ act, (world.step act).seen = world.seen ++ world.handed act ∧
      ∀ e ∈ world.handed act, e.handle ∈ world.session.active ∧ e.Tells := by
  have accounted := reachable.accounted
  refine ⟨?_, ?_, ?_⟩
  · intro h unregistered acts
    have gone := accounted.gone_unregister unregistered
    exact (accounted.unregister h).silent_run gone acts
  · intro acts
    have ended : (world.step .teardown).Ended := ⟨rfl, rfl⟩
    obtain ⟨ended_then, sent, seen⟩ := accounted.teardown.ended_run ended acts
    refine ⟨ended_then.2, sent, seen, ended_then.refuses, ?_⟩
    intro path
    exact ended_then.refuses _ _ _ _
  · intro act
    exact ⟨(world.moves act).seen, fun e he => accounted.handed he⟩

/-- A watch of the root of an empty file system has reported a file, which nobody has been told of.
-/
def oneReported : World :=
  (start { bufferSize := 16 } { tree := ⟨[], []⟩ }).run
    [.watch "/", .deliver ⟨1⟩ (.ok ⟨.create .file, [[RawPath.slash, 97]], false⟩), .work ⟨1⟩]

/-- The report of a watch that is unregistered is in the queue, and the handler is never told of
it. -/
theorem silence_after_close_oneReported :
    oneReported.Reachable true ∧ oneReported.queuedBy ⟨1⟩ = [.changes [⟨.added, "a"⟩]] ∧
      (oneReported.session.unregister ⟨1⟩).1 = .ok () ∧
      ∀ acts, ((oneReported.step (.unregister ⟨1⟩)).run acts).seenBy ⟨1⟩ = [] := by
  have reachable : oneReported.Reachable true := ⟨_, _, _, fun strict => by simp at strict, rfl⟩
  have queued : oneReported.queuedBy ⟨1⟩ = [.changes [⟨.added, "a"⟩]] := by decide +kernel
  have unregistered : (oneReported.session.unregister ⟨1⟩).1 = .ok () := by decide +kernel
  have untold : oneReported.seenBy ⟨1⟩ = [] := by decide +kernel
  obtain ⟨silent, -, -⟩ := silence_after_close reachable
  refine ⟨reachable, queued, unregistered, ?_⟩
  intro acts
  exact (silent ⟨1⟩ unregistered acts).2.trans untold

end World

end DirWatch
