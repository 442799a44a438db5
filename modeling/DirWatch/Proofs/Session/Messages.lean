import DirWatch.Proofs.Session.Accounts

/-!
# Messages on their way

What one act does to the messages of a session: some are reported and join the queue
(`World.reported`), some are taken out of it (`World.taken`) and counted (`World.counted`), and of
these some are handed to the handler (`World.handed`). `World.moves` says that this is all that
happens to them; what follows of whole runs is gathered with `World.along`.
-/

namespace DirWatch

namespace Session

/-- A registration touches neither messages nor totals; it makes active at most the watch with the
next number. -/
theorem register_kept (s : Session) (host : Host) (path : String) (includeSubtree : Bool)
    (filter : Filter) (patterns : List String) :
    let outcome := s.register host path includeSubtree filter patterns
    outcome.2.1.queue = s.queue ∧ outcome.2.1.totals = s.totals ∧
      outcome.2.1.tornDown = s.tornDown ∧ host.nextHandle ≤ outcome.2.2.nextHandle ∧
      (outcome.2.1.active = s.active ∨ outcome.2.1.active = s.active ++ [⟨host.nextHandle⟩]) := by
  rw [register]
  split
  · exact ⟨rfl, rfl, rfl, Nat.le_refl _, .inl rfl⟩
  · split
    · exact ⟨rfl, rfl, rfl, Nat.le_refl _, .inl rfl⟩
    · next ps _ =>
      split
      · exact ⟨rfl, rfl, rfl, Nat.le_refl _, .inl rfl⟩
      · -- a number is used up whether the watch can be started or not
        rcases Watch.setUp_cases (Watch.settingsFor s.config path includeSubtree filter ps) host with
          ⟨e, w, host', set_up, numbers, -⟩ | ⟨root, w, host', set_up, numbers, started⟩
        · have more : host.nextHandle ≤ host'.nextHandle := by omega
          rw [set_up]
          exact ⟨rfl, rfl, rfl, more, .inl rfl⟩
        · have more : host.nextHandle ≤ host'.nextHandle := by omega
          rw [set_up]
          refine ⟨rfl, rfl, rfl, more, .inr ?_⟩
          show s.active ++ [w.handle] = s.active ++ [⟨host.nextHandle⟩]
          rw [started.handle]

theorem queue_work (s : Session) (host : Host) (h : Handle) :
    (s.work host h).1.queue = s.queue ++ (s.watch? h).toList.flatMap fun w =>
      (w.work host).1.map fun p => ⟨h, p⟩ := by
  rw [work]
  cases s.watch? h with
  | none => exact (List.append_nil _).symm
  | some w =>
    rw [Option.toList_some, List.flatMap_singleton]
    rfl

theorem queue_callBack (s : Session) (host : Host) (h : Handle) :
    (s.callBack host h).1.queue = s.queue ++ (s.watch? h).toList.flatMap fun w =>
      (w.onReadComplete host).1.map fun p => ⟨h, p⟩ := by
  rw [callBack]
  cases s.watch? h with
  | none => exact (List.append_nil _).symm
  | some w =>
    rw [Option.toList_some, List.flatMap_singleton]
    rfl

/-- Neither the worker nor the callback of a watch touches the rest of the session. -/
theorem work_kept (s : Session) (host : Host) (h : Handle) :
    (s.work host h).1.totals = s.totals ∧ (s.work host h).1.active = s.active ∧
      (s.work host h).1.tornDown = s.tornDown := by
  rw [work]
  split <;> exact ⟨rfl, rfl, rfl⟩

theorem callBack_kept (s : Session) (host : Host) (h : Handle) :
    (s.callBack host h).1.totals = s.totals ∧ (s.callBack host h).1.active = s.active ∧
      (s.callBack host h).1.tornDown = s.tornDown := by
  rw [callBack]
  split <;> exact ⟨rfl, rfl, rfl⟩

/-- A dispatch of what is queued does nothing if there is nothing, and else deals with all. -/
theorem dispatchNext_cases (s : Session) (fails : Nat → Bool) :
    (s.queue = [] ∧ s.dispatchNext fails = none) ∨
      s.dispatchNext fails = some (s.dispatchPending fails) := by
  rw [dispatchNext]
  cases empty : s.queue.isEmpty with
  | true => exact .inl ⟨List.isEmpty_iff.mp empty, rfl⟩
  | false => exact .inr rfl

end Session

namespace World

variable {world world' : World} {act : Session.Act}

/-- The messages that an act adds to the queue. -/
def reported (world : World) : Session.Act → List Message
  | .work h => (world.session.watch? h).toList.flatMap fun w =>
    (w.work world.host).1.map fun p => ⟨h, p⟩
  | .callBack h => (world.session.watch? h).toList.flatMap fun w =>
    (w.onReadComplete world.host).1.map fun p => ⟨h, p⟩
  | _ => []

/-- The messages that an act takes out of the queue. -/
def taken (world : World) : Session.Act → List Message
  | .dispatch _ | .dispatchNext _ | .teardown => world.session.queue
  | _ => []

/-- The events that an act hands to the handler. -/
def handed (world : World) : Session.Act → List Event
  | .dispatch fails | .dispatchNext fails => (world.session.dispatchPending fails).1.seen
  | _ => []

/-- What an act adds to the totals. -/
def counted (world : World) : Session.Act → Report
  | .dispatch fails | .dispatchNext fails => (world.session.dispatchPending fails).1.report
  | .teardown => { Report.zero with discarded := world.session.queue.length }
  | _ => .zero

/-- Of messages, an act reports some, takes some out of the queue, and hands some of these to the
handler; all that it takes is counted. -/
structure Moves (world : World) (act : Session.Act) (world' : World) : Prop where
  sent : world'.sent = world.sent ++ world.reported act
  queue : world.session.queue ++ world.reported act = world.taken act ++ world'.session.queue
  seen : world'.seen = world.seen ++ world.handed act
  totals : world'.session.totals = world.session.totals.add (world.counted act)

/-- An act that neither reports anything nor touches the queue. -/
theorem Moves.still (reports : world.reported act = []) (takes : world.taken act = [])
    (hands : world.handed act = []) (counts : world.counted act = .zero)
    (sent : world'.sent = world.sent) (queue : world'.session.queue = world.session.queue)
    (seen : world'.seen = world.seen) (totals : world'.session.totals = world.session.totals) :
    world.Moves act world' where
  sent := by rw [reports, sent, List.append_nil]
  queue := by rw [reports, takes, queue, List.append_nil, List.nil_append]
  seen := by rw [hands, seen, List.append_nil]
  totals := by
    rw [counts, totals]
    rfl

/-- Writing a registration down touches no messages, just as the registration itself. -/
theorem Moves.enroll {outcome : Except RegisterError Handle × Session × Host}
    (reports : world.reported act = []) (takes : world.taken act = [])
    (hands : world.handed act = []) (counts : world.counted act = .zero)
    (queue : outcome.2.1.queue = world.session.queue)
    (totals : outcome.2.1.totals = world.session.totals) :
    world.Moves act (world.enroll outcome) := by
  obtain ⟨answer, session, host⟩ := outcome
  cases answer with
  | error e => exact .still reports takes hands counts rfl queue rfl totals
  | ok h => exact .still reports takes hands counts rfl queue rfl totals

/-- Whatever happens, this is all that happens to messages. -/
theorem moves (world : World) (act : Session.Act) : world.Moves act (world.step act) := by
  cases act with
  | register path includeSubtree filter patterns =>
    obtain ⟨queue, totals, -⟩ :=
      world.session.register_kept world.host path includeSubtree filter patterns
    exact .enroll rfl rfl rfl rfl queue totals
  | watch path =>
    obtain ⟨queue, totals, -⟩ := world.session.register_kept world.host path
      world.session.config.includeSubtree world.session.config.filter []
    exact .enroll rfl rfl rfl rfl queue totals
  | unregister h =>
    have kept : (world.session.unregister h).2.queue = world.session.queue ∧
        (world.session.unregister h).2.totals = world.session.totals := by
      rw [Session.unregister]
      split <;> exact ⟨rfl, rfl⟩
    exact .still rfl rfl rfl rfl rfl kept.1 rfl kept.2
  | teardown => exact ⟨(List.append_nil _).symm, rfl, (List.append_nil _).symm, rfl⟩
  | deliver h delivery => exact .still rfl rfl rfl rfl rfl rfl rfl rfl
  | work h =>
    have queue := world.session.queue_work world.host h
    obtain ⟨totals, -⟩ := world.session.work_kept world.host h
    refine ⟨?_, queue.symm, (List.append_nil _).symm, totals⟩
    -- what is written down as sent is what the queue has gained
    show world.sent ++ (world.session.work world.host h).1.queue.drop _ = _
    rw [queue, List.drop_left]
    rfl
  | callBack h =>
    have queue := world.session.queue_callBack world.host h
    obtain ⟨totals, -⟩ := world.session.callBack_kept world.host h
    refine ⟨?_, queue.symm, (List.append_nil _).symm, totals⟩
    show world.sent ++ (world.session.callBack world.host h).1.queue.drop _ = _
    rw [queue, List.drop_left]
    rfl
  | dispatch fails => exact ⟨(List.append_nil _).symm, rfl, rfl, rfl⟩
  | dispatchNext fails =>
    rcases world.session.dispatchNext_cases fails with ⟨nothing, dispatches⟩ | dispatches
    · have same : world.step (.dispatchNext fails) = world := by
        simp only [step, dispatches]
      rw [same]
      -- a pass over nothing hands on nothing and counts nothing
      refine .still rfl nothing ?_ ?_ rfl rfl rfl rfl
      · show (Pass.run world.session.isEnded fails world.session.queue).seen = []
        rw [nothing]
        rfl
      · show (Pass.run world.session.isEnded fails world.session.queue).report = .zero
        rw [nothing]
        rfl
    · rw [step, dispatches]
      exact ⟨(List.append_nil _).symm, rfl, rfl, rfl⟩
  | surroundings host => exact .still rfl rfl rfl rfl rfl rfl rfl rfl

/-! ## Along a run -/

/-- What each act of a run adds, one after another. -/
def along {α : Type} (adds : World → Session.Act → List α) (world : World) :
    List Session.Act → List α
  | [] => []
  | act :: rest => adds world act ++ along adds (world.step act) rest

/-- All that is sent in a run is reported by one of its acts. -/
theorem sent_run (world : World) (acts : List Session.Act) :
    (world.run acts).sent = world.sent ++ world.along reported acts := by
  induction acts generalizing world with
  | nil => exact (List.append_nil _).symm
  | cons act rest ih =>
    show ((world.step act).run rest).sent =
      world.sent ++ (world.reported act ++ (world.step act).along reported rest)
    rw [ih, (world.moves act).sent, List.append_assoc]

/-- What a watch has reported stays reported. -/
theorem sentBy_run (world : World) (acts : List Session.Act) (h : Handle) :
    ∃ more, (world.run acts).sentBy h = world.sentBy h ++ more := by
  refine ⟨payloads h (world.along reported acts), ?_⟩
  rw [sentBy, sent_run, payloads_append]
  rfl

end World

end DirWatch
