import DirWatch.Proofs.Session.Messages
import DirWatch.Proofs.Watch.Reporting

/-!
# What becomes of messages

Every message that leaves the queue meets one fate: it is handed to the handler, suppressed or
discarded (`Pass.fates`, `World.fates`). `World.messages_conserved` says that the totals of a
session count these fates, that nothing that was reported is lost or counted twice, and that the
counters of a watch count its reports.
-/

namespace DirWatch

/-- What becomes of a message. -/
inductive Fate where
  /-- It is handed to the handler, who may answer with an error. -/
  | delivered (failed : Bool)
  | suppressed
  | discarded
  deriving DecidableEq

namespace Fate

def isDelivered : Fate → Bool
  | delivered _ => true
  | _ => false

end Fate

namespace Report

/-- Fates, counted. -/
def tally (fates : List Fate) : Report where
  delivered := fates.countP Fate.isDelivered
  suppressed := fates.count .suppressed
  discarded := fates.count .discarded
  handlerErrors := fates.count (.delivered true)

theorem zero_add (r : Report) : zero.add r = r := by
  simp only [add, zero, Nat.zero_add]

theorem add_assoc (a b c : Report) : (a.add b).add c = a.add (b.add c) := by
  simp only [add, Nat.add_assoc]

theorem add_add_add_comm (a b c d : Report) :
    (a.add b).add (c.add d) = (a.add c).add (b.add d) := by
  simp only [add, Nat.add_add_add_comm]

/-- Several reports together. -/
def sum (reports : List Report) : Report := reports.foldr add zero

theorem sum_append (reports reports' : List Report) :
    sum (reports ++ reports') = (sum reports).add (sum reports') := by
  induction reports with
  | nil => exact (zero_add _).symm
  | cons r rest ih =>
    show r.add (sum (rest ++ reports')) = (r.add (sum rest)).add (sum reports')
    rw [ih, add_assoc]

/-- Discarded messages, counted. -/
def discarding (n : Nat) : Report := { zero with discarded := n }

theorem discarding_add (m n : Nat) : discarding (m + n) = (discarding m).add (discarding n) := rfl

theorem tally_append (fates fates' : List Fate) :
    tally (fates ++ fates') = (tally fates).add (tally fates') := by
  simp only [tally, add, List.countP_append, List.count_append]

theorem tally_cons (fate : Fate) (fates : List Fate) :
    tally (fate :: fates) = (tally [fate]).add (tally fates) := tally_append [fate] fates

/-- Each fate is counted once. -/
theorem processed_tally (fates : List Fate) : (tally fates).processed = fates.length := by
  induction fates with
  | nil => rfl
  | cons fate rest ih =>
    have one : (tally [fate]).processed = 1 := by
      cases fate <;> rfl
    rw [tally_cons, processed_add, one, ih, List.length_cons, Nat.add_comm]

theorem tally_discarded (messages : List Message) :
    tally ((messages.map fun m => (m, Fate.discarded)).map Prod.snd) =
      discarding messages.length := by
  induction messages with
  | nil => rfl
  | cons m rest ih =>
    rw [List.map_cons, List.map_cons, tally_cons, ih, List.length_cons, Nat.add_comm,
      discarding_add]
    rfl

theorem deliver_eq (r : Report) (failed : Bool) :
    r.deliver failed = r.add (tally [.delivered failed]) := by
  cases failed <;> rfl

end Report

/-! ## The fates of one pass -/

namespace Pass

/-- What becomes of the messages of a pass that has handed on this many already. -/
def fates (ended : Message → Bool) (fails : Nat → Bool) (already : Nat) :
    List Message → List (Message × Fate)
  | [] => []
  | m :: rest =>
    if ended m then (m, .discarded) :: fates ended fails already rest
    else if m.status = .noChanges then (m, .suppressed) :: fates ended fails already rest
    else (m, .delivered (fails already)) :: fates ended fails (already + 1) rest

/-- A call of the handler with its answer, if that is the fate of a message. -/
def call? : Message × Fate → Option (Event × Bool)
  | (m, .delivered failed) => some (m, failed)
  | _ => none

/-- What is counted as delivered, and as answered with an error, are the calls of the handler. -/
theorem tally_calls (met : List (Message × Fate)) :
    (Report.tally (met.map Prod.snd)).delivered = (met.filterMap call?).length ∧
      (Report.tally (met.map Prod.snd)).handlerErrors =
        ((met.filterMap call?).filter Prod.snd).length := by
  induction met with
  | nil => exact ⟨rfl, rfl⟩
  | cons first rest ih =>
    obtain ⟨m, fate⟩ := first
    obtain ⟨delivered, errors⟩ := ih
    rw [List.map_cons, Report.tally_cons]
    cases fate with
    | delivered failed =>
      have called : 1 + (Report.tally (rest.map Prod.snd)).delivered =
          (rest.filterMap call?).length + 1 := by
        rw [delivered, Nat.add_comm]
      cases failed with
      | true =>
        refine ⟨called, ?_⟩
        show 1 + (Report.tally (rest.map Prod.snd)).handlerErrors =
          ((rest.filterMap call?).filter Prod.snd).length + 1
        rw [errors, Nat.add_comm]
      | false => exact ⟨called, (Nat.zero_add _).trans errors⟩
    | suppressed => exact ⟨(Nat.zero_add _).trans delivered, (Nat.zero_add _).trans errors⟩
    | discarded => exact ⟨(Nat.zero_add _).trans delivered, (Nat.zero_add _).trans errors⟩

variable (ended : Message → Bool) (fails : Nat → Bool)

/-- Each message of a pass meets a fate. -/
theorem map_fst_fates (already : Nat) (messages : List Message) :
    (fates ended fails already messages).map Prod.fst = messages := by
  induction messages generalizing already with
  | nil => rfl
  | cons m rest ih =>
    rw [fates]
    split
    · rw [List.map_cons, ih]
    · split
      · rw [List.map_cons, ih]
      · rw [List.map_cons, ih]

/-- A pass counts the fates of its messages, and shows the handler those that are delivered. -/
theorem foldl_step (messages : List Message) (p : Pass) :
    messages.foldl (step ended fails) p =
      ⟨p.report.add (.tally ((fates ended fails p.seen.length messages).map Prod.snd)),
        p.seen ++ ((fates ended fails p.seen.length messages).filterMap call?).map Prod.fst⟩ := by
  induction messages generalizing p with
  | nil => exact congrArg (Pass.mk p.report) (List.append_nil p.seen).symm
  | cons m rest ih =>
    rw [List.foldl_cons, ih, step, fates]
    split
    · rw [List.map_cons, Report.tally_cons, ← Report.add_assoc]
      rfl
    · split
      · rw [List.map_cons, Report.tally_cons, ← Report.add_assoc]
        rfl
      · have called : (p.seen ++ [m]).length = p.seen.length + 1 := List.length_append
        simp only [called]
        rw [List.map_cons, Report.tally_cons, ← Report.add_assoc, ← Report.deliver_eq,
          List.append_assoc]
        rfl

/-- The calls of a pass are answered in the order in which they are made. -/
theorem filterMap_fates (already : Nat) (messages : List Message) :
    (fates ended fails already messages).filterMap call? =
      (((fates ended fails already messages).filterMap call?).map Prod.fst).mapIdx
        fun i e => (e, fails (already + i)) := by
  induction messages generalizing already with
  | nil => rfl
  | cons m rest ih =>
    rw [fates]
    split
    · exact ih already
    · split
      · exact ih already
      · show (m, fails already) :: (fates ended fails (already + 1) rest).filterMap call? = _
        refine (congrArg _ (ih (already + 1))).trans ?_
        show _ = List.mapIdx _ (m :: ((fates ended fails (already + 1) rest).filterMap call?).map
          Prod.fst)
        rw [List.mapIdx_cons]
        simp only [Nat.add_assoc, Nat.add_comm 1, Nat.add_zero]

theorem run_eq (messages : List Message) :
    run ended fails messages = ⟨.tally ((fates ended fails 0 messages).map Prod.snd),
      ((fates ended fails 0 messages).filterMap call?).map Prod.fst⟩ := by
  have folded := foldl_step ended fails messages start
  rw [show start.report = .zero from rfl, Report.zero_add] at folded
  exact folded

/-- The calls of a pass with their answers. -/
def answered (fails : Nat → Bool) (p : Pass) : List (Event × Bool) :=
  p.seen.mapIdx fun i e => (e, fails i)

theorem answered_run (messages : List Message) :
    (run ended fails messages).answered fails =
      (fates ended fails 0 messages).filterMap call? := by
  have answers := filterMap_fates ended fails 0 messages
  simp only [Nat.zero_add] at answers
  rw [run_eq]
  exact answers.symm

end Pass

namespace World

/-! ## The fates of a run -/

/-- What becomes of the messages that an act takes out of the queue. -/
def fates (world : World) : Session.Act → List (Message × Fate)
  | .dispatch fails | .dispatchNext fails =>
    Pass.fates world.session.isEnded fails 0 world.session.queue
  | .teardown => world.session.queue.map fun m => (m, .discarded)
  | _ => []

/-- The dispatch passes of an act. -/
def passes (world : World) : Session.Act → List Pass
  | .dispatch fails => [(world.session.dispatchPending fails).1]
  | .dispatchNext fails => (world.session.dispatchNext fails).toList.map Prod.fst
  | _ => []

/-- The messages that an act discards without a pass. -/
def dropped (world : World) : Session.Act → List Message
  | .teardown => world.session.queue
  | _ => []

/-- The calls of the handler in an act, with its answers. -/
def calls (world : World) : Session.Act → List (Event × Bool)
  | .dispatch fails | .dispatchNext fails => (world.session.dispatchPending fails).1.answered fails
  | _ => []

/-- What is counted, and what the handler is told, are the fates of what is taken out of the queue.
-/
structure Settles (world : World) (act : Session.Act) : Prop where
  taken : (world.fates act).map Prod.fst = world.taken act
  counted : Report.tally ((world.fates act).map Prod.snd) = world.counted act
  called : (world.fates act).filterMap Pass.call? = world.calls act
  handed : (world.calls act).map Prod.fst = world.handed act
  passed : world.counted act = (Report.sum ((world.passes act).map Pass.report)).add
    (.discarding (world.dropped act).length)

theorem settles_dispatch (world : World) (fails : Nat → Bool) :
    world.Settles (.dispatch fails) := by
  have pass := Pass.run_eq world.session.isEnded fails world.session.queue
  have called := Pass.answered_run world.session.isEnded fails world.session.queue
  refine ⟨Pass.map_fst_fates _ _ _ _, ?_, called.symm, ?_, rfl⟩
  · exact congrArg Pass.report pass.symm
  · exact (congrArg (List.map Prod.fst) called).trans (congrArg Pass.seen pass.symm)

theorem settles (world : World) (act : Session.Act) : world.Settles act := by
  cases act with
  | dispatch fails => exact world.settles_dispatch fails
  | dispatchNext fails =>
    obtain ⟨taken, counted, called, handed, -⟩ := world.settles_dispatch fails
    refine ⟨taken, counted, called, handed, ?_⟩
    rcases world.session.dispatchNext_cases fails with ⟨nothing, dispatches⟩ | dispatches
    · rw [passes, dispatches]
      show (Pass.run world.session.isEnded fails world.session.queue).report = _
      rw [nothing]
      rfl
    · rw [passes, dispatches]
      rfl
  | teardown =>
    refine ⟨?_, Report.tally_discarded _, ?_, rfl, (Report.zero_add _).symm⟩
    · show (world.session.queue.map fun m => (m, Fate.discarded)).map Prod.fst = _
      rw [List.map_map]
      exact List.map_id _
    · show (world.session.queue.map fun m => (m, Fate.discarded)).filterMap Pass.call? = []
      rw [List.filterMap_map]
      exact List.filterMap_eq_nil_iff.mpr fun m _ => rfl
  | _ => exact ⟨rfl, rfl, rfl, rfl, rfl⟩

/-- Along a run, what was queued or is reported is taken out of the queue or stays in it. -/
theorem queue_run (world : World) (acts : List Session.Act) :
    world.session.queue ++ world.along reported acts =
      (world.along fates acts).map Prod.fst ++ (world.run acts).session.queue := by
  induction acts generalizing world with
  | nil => exact List.append_nil _
  | cons act rest ih =>
    have queue := (world.moves act).queue
    show world.session.queue ++ (world.reported act ++ (world.step act).along reported rest) =
      (world.fates act ++ (world.step act).along fates rest).map Prod.fst ++
        ((world.step act).run rest).session.queue
    rw [List.map_append, (world.settles act).taken, List.append_assoc, ← ih, ← List.append_assoc,
      queue, List.append_assoc]

/-- Along a run, the totals count the fates of all messages that leave the queue. -/
theorem totals_run (world : World) (acts : List Session.Act) :
    (world.run acts).session.totals =
      world.session.totals.add (.tally ((world.along fates acts).map Prod.snd)) := by
  induction acts generalizing world with
  | nil => rfl
  | cons act rest ih =>
    show ((world.step act).run rest).session.totals = world.session.totals.add
      (.tally ((world.fates act ++ (world.step act).along fates rest).map Prod.snd))
    rw [ih, (world.moves act).totals, List.map_append, Report.tally_append,
      (world.settles act).counted, Report.add_assoc]

theorem calls_along (world : World) (acts : List Session.Act) :
    (world.along fates acts).filterMap Pass.call? = world.along calls acts := by
  induction acts generalizing world with
  | nil => rfl
  | cons act rest ih =>
    show (world.fates act ++ (world.step act).along fates rest).filterMap Pass.call? =
      world.calls act ++ (world.step act).along calls rest
    rw [List.filterMap_append, ih, (world.settles act).called]

theorem seen_run_calls (world : World) (acts : List Session.Act) :
    (world.run acts).seen = world.seen ++ (world.along calls acts).map Prod.fst := by
  induction acts generalizing world with
  | nil => exact (List.append_nil _).symm
  | cons act rest ih =>
    show ((world.step act).run rest).seen =
      world.seen ++ (world.calls act ++ (world.step act).along calls rest).map Prod.fst
    rw [ih, (world.moves act).seen, List.map_append, (world.settles act).handed,
      List.append_assoc]

/-- Along a run, fates are counted by the passes or come from a teardown. -/
theorem tally_along (world : World) (acts : List Session.Act) :
    Report.tally ((world.along fates acts).map Prod.snd) =
      (Report.sum ((world.along passes acts).map Pass.report)).add
        (.discarding (world.along dropped acts).length) := by
  induction acts generalizing world with
  | nil => rfl
  | cons act rest ih =>
    show Report.tally ((world.fates act ++ (world.step act).along fates rest).map Prod.snd) =
      (Report.sum ((world.passes act ++ (world.step act).along passes rest).map Pass.report)).add
        (.discarding (world.dropped act ++ (world.step act).along dropped rest).length)
    have here : Report.tally ((world.fates act).map Prod.snd) = _ :=
      (world.settles act).counted.trans (world.settles act).passed
    rw [List.map_append, Report.tally_append, ih, here, List.map_append, Report.sum_append,
      List.length_append, Report.discarding_add, Report.add_add_add_comm]

/-! ## Conservation -/

/-- Where the messages of a session are, after a run in which messages have met these fates, the
handler was called and has answered so, and these passes were made and these messages dropped. -/
structure Conserved (world : World) (fates : List (Message × Fate)) (calls : List (Event × Bool))
    (passes : List Pass) (dropped : List Message) : Prop where
  /-- Every message that was ever sent has met one fate or is queued. -/
  met : world.sent = fates.map Prod.fst ++ world.session.queue
  balance : world.sent.length = world.session.totals.processed + world.session.queue.length
  /-- The totals count each fate once. -/
  counted : world.session.totals = .tally (fates.map Prod.snd)
  /-- The handler was called for the messages that were delivered. -/
  called : fates.filterMap Pass.call? = calls ∧ calls.map Prod.fst = world.seen
  delivered : world.session.totals.delivered = calls.length
  errors : world.session.totals.handlerErrors = (calls.filter Prod.snd).length ∧
    world.session.totals.handlerErrors ≤ world.session.totals.delivered
  passed : world.session.totals =
    (Report.sum (passes.map Pass.report)).add (.discarding dropped.length)
  reported : ∀ h ∈ world.session.active, ∃ w, world.session.activeWatch? h = some w ∧
    (world.sentBy h).length = w.counters.completed + w.counters.failed

/-- After every run of a session: no message is lost or counted twice on its way from a watch to the
handler, and the totals of the session and the counters of its watches say so. -/
theorem messages_conserved (config : MonitorConfig) (host : Host) (acts : List Session.Act) :
    let before := start config host
    (before.run acts).Conserved (before.along fates acts) (before.along calls acts)
      (before.along passes acts) (before.along dropped acts) := by
  intro before
  have queue := before.queue_run acts
  have sent := before.sent_run acts
  have totals := before.totals_run acts
  have seen := before.seen_run_calls acts
  have calls := before.calls_along acts
  -- nothing was queued, sent or counted to begin with
  rw [show before.session.queue = [] from rfl, List.nil_append] at queue
  rw [show before.sent = [] from rfl, List.nil_append, queue] at sent
  rw [show before.session.totals = .zero from rfl, Report.zero_add] at totals
  obtain ⟨delivered, errors⟩ := Pass.tally_calls (before.along fates acts)
  rw [← totals, calls] at delivered errors
  refine {
    met := sent
    balance := ?_
    counted := totals
    called := ⟨calls, seen.symm⟩
    delivered
    errors := ⟨errors, ?_⟩
    passed := totals.trans (before.tally_along acts)
    reported := ?_ }
  · rw [sent, totals, Report.processed_tally, List.length_append, List.length_map,
      List.length_map]
  · rw [errors, delivered]
    exact List.length_filter_le _ _
  · intro h active
    have reachable : (before.run acts).Reachable true :=
      ⟨config, host, acts, fun strict => by simp at strict, rfl⟩
    obtain ⟨w, found, rfl, lives⟩ := reachable.accounted.activeWatch active
    exact ⟨w, found, lives.reported⟩

/-- A file is told of, and the handler fails; the loss of changes is no change; and what comes last
is dropped. -/
example :
    ((start { bufferSize := 16 } { tree := ⟨[], []⟩ }).along fates
      [.watch "/", .deliver ⟨1⟩ (.ok ⟨.create .file, [[RawPath.slash, 97]], false⟩), .work ⟨1⟩,
        .dispatch fun _ => true, .deliver ⟨1⟩ (.ok ⟨.create .file, [], true⟩), .work ⟨1⟩,
        .dispatch fun _ => true, .deliver ⟨1⟩ (.ok ⟨.create .file, [[RawPath.slash, 98]], false⟩),
        .work ⟨1⟩, .teardown]).map Prod.snd = [.delivered true, .suppressed, .discarded] := by
  decide +kernel

end World

end DirWatch
