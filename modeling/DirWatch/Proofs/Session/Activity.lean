import DirWatch.Proofs.Session.Accounted
import DirWatch.Proofs.Watch.Running

/-!
# What the watches of a session do

A delivery, a callback, a turn of the worker and a pass of dispatch keep `World.Accounted`. The
first three change one watch and append to its past; a pass moves what is queued to what the handler
has seen.
-/

namespace DirWatch

namespace World

variable {loose : Bool} {world : World}

/-- Nothing happens to a watch that the session does not know. -/
theorem step_unknown {k : Handle} (unknown : world.session.watch? k = none) :
    (∀ delivery, world.step (.deliver k delivery) = world) ∧ world.step (.work k) = world ∧
      world.step (.callBack k) = world := by
  refine ⟨fun delivery => ?_, ?_, ?_⟩
  · simp only [step, Session.deliver, Session.update_of_watch?_none unknown, unknown,
      Option.toList_none, List.flatMap_nil, List.append_nil]
  · simp only [step, Session.work, unknown, Option.toList_none, List.flatMap_nil, World.absorb,
      List.drop_length, List.append_nil]
  · simp only [step, Session.callBack, unknown, Option.toList_none, List.flatMap_nil, World.absorb,
      List.drop_length, List.append_nil]

/-! ## Deliveries -/

theorem Accounted.deliver (h : world.Accounted loose) (k : Handle) (delivery : Delivery) :
    (world.step (.deliver k delivery)).Accounted loose := by
  cases found : world.session.watch? k with
  | none =>
    rwa [(step_unknown found).1 delivery]
  | some w =>
    obtain ⟨mem, rfl⟩ := Session.mem_of_watch? found
    have alike := Watch.alike_deliver world.host.tree.pathExists w delivery
    have stepped : world.step (.deliver w.handle delivery) = { world with
        session := world.session.deliver world.host.tree.pathExists w.handle delivery
        arrivals := world.arrivals ++
          (w.arrival world.host.tree.pathExists [delivery]).map fun x => (w.handle, x) } := by
      simp only [step, found, Option.toList_some, List.flatMap_singleton]
    rw [stepped]
    refine h.change (f := (Watch.deliver world.host.tree.pathExists · delivery)) mem rfl rfl rfl rfl
      ?_ alike.handle ?_ ?_
    · intro v other
      simp only [account, sentBy, queuedBy, seenBy, arrivalsAt, requestsOf, noted_append,
        noted_pairs, if_neg (Ne.symm other), List.append_nil]
      rfl
    · intro lived
      have next : { world with
          session := world.session.deliver world.host.tree.pathExists w.handle delivery
          arrivals := world.arrivals ++ (w.arrival world.host.tree.pathExists [delivery]).map
            fun x => (w.handle, x) }.account (w.deliver world.host.tree.pathExists delivery) =
          (world.account w).deliver world.host.tree.pathExists delivery := by
        simp only [account, sentBy, queuedBy, seenBy, arrivalsAt, requestsOf, noted_append,
          noted_pairs, alike.handle, if_pos]
        rfl
      rw [next]
      exact lived.deliver _ _
    · rintro ⟨shut, counted⟩
      rw [shut.deliver]
      exact ⟨shut, counted⟩

/-! ## Workers and callbacks -/

/-- A watch does something that it reports, and may ask for reads. -/
theorem Accounted.absorb (h : world.Accounted loose) {w w' : Watch}
    (mem : w ∈ world.session.watches) {reports : List Payload} {requests : List Watch}
    (handle : w'.handle = w.handle) (own : ∀ r ∈ requests, r.handle = w.handle)
    (lived : (world.account w).Lived loose → Account.Lived loose { world.account w with
      watch := w'
      sent := (world.account w).sent ++ reports
      queued := (world.account w).queued ++ reports
      requests := (world.account w).requests ++ requests })
    (ended : w.Shut ∧ w.Counted → w'.Shut ∧ w'.Counted) :
    (world.absorb (world.session.absorb w.handle reports w', world.host) requests).Accounted
      loose := by
  have queued : (world.session.absorb w.handle reports w').queue =
      world.session.queue ++ reports.map fun p => ⟨w.handle, p⟩ := rfl
  have own_requests (k : Handle) :
      requests.filter (fun r => r.handle = k) = if w.handle = k then requests else [] := by
    split
    · next same => exact List.filter_eq_self.mpr fun r hr => by simp [own r hr, same]
    · next other => exact List.filter_eq_nil_iff.mpr fun r hr => by simp [own r hr, other]
  refine h.change (f := fun _ => w') mem rfl rfl rfl rfl ?_ handle ?_ ended
  · intro v other
    simp only [account, sentBy, queuedBy, seenBy, arrivalsAt, requestsOf, World.absorb, queued,
      List.drop_left, payloads_append, payloads_reports, List.filter_append, own_requests,
      if_neg (Ne.symm other), List.append_nil]
  · intro lives
    have next : (world.absorb (world.session.absorb w.handle reports w', world.host)
        requests).account w' = { world.account w with
          watch := w'
          sent := (world.account w).sent ++ reports
          queued := (world.account w).queued ++ reports
          requests := (world.account w).requests ++ requests } := by
      simp only [account, sentBy, queuedBy, seenBy, arrivalsAt, requestsOf, World.absorb, queued,
        List.drop_left, payloads_append, payloads_reports, List.filter_append, own_requests,
        handle, if_pos]
    rw [next]
    exact lived lives

/-- Neither a callback nor a worker changes the host. -/
theorem Accounted.keeps_host (h : world.Accounted loose) {w : Watch}
    (mem : w ∈ world.session.watches) (host : Host) :
    (w.onReadComplete host).2.2 = host ∧ (w.work host).2.2 = host := by
  by_cases is_active : w.handle ∈ world.session.active
  · obtain ⟨root, stage, j, l, holds⟩ := (h.lived w mem is_active).holds
    exact ⟨holds.stands.callBack_host host, holds.stands.work_host host⟩
  · obtain ⟨shut, -⟩ := h.ended w mem is_active
    rw [shut.callBack host, shut.work host]
    exact ⟨rfl, rfl⟩

theorem Accounted.callBack (h : world.Accounted true) (k : Handle) :
    (world.step (.callBack k)).Accounted true := by
  cases found : world.session.watch? k with
  | none =>
    rwa [(step_unknown found).2.2]
  | some w =>
    obtain ⟨mem, rfl⟩ := Session.mem_of_watch? found
    have alike := Watch.alike_onReadComplete w world.host
    obtain ⟨same_host, -⟩ := h.keeps_host mem world.host
    have stepped : world.step (.callBack w.handle) =
        world.absorb (world.session.absorb w.handle (w.onReadComplete world.host).1
          (w.onReadComplete world.host).2.1, world.host) w.nextRequest := by
      simp only [step, Session.callBack, found, Option.toList_some, List.flatMap_singleton,
        same_host]
    rw [stepped]
    refine h.absorb mem alike.handle (fun r hr => Watch.handle_of_mem_nextRequest hr) ?_ ?_
    · intro lived
      exact lived.callBack rfl world.host
    · rintro ⟨shut, counted⟩
      rw [shut.callBack]
      exact ⟨shut, counted⟩

theorem Accounted.work (h : world.Accounted loose) (k : Handle) :
    (world.step (.work k)).Accounted loose := by
  cases found : world.session.watch? k with
  | none =>
    rwa [(step_unknown found).2.1]
  | some w =>
    obtain ⟨mem, rfl⟩ := Session.mem_of_watch? found
    have alike := Watch.alike_work w world.host
    obtain ⟨-, same_host⟩ := h.keeps_host mem world.host
    have stepped : world.step (.work w.handle) =
        world.absorb (world.session.absorb w.handle (w.work world.host).1
          (w.work world.host).2.1, world.host)
          (if w.isSignaled then w.consumeSignal.nextRequest else []) := by
      simp only [step, Session.work, found, Option.toList_some, List.flatMap_singleton, same_host]
    rw [stepped]
    refine h.absorb mem alike.handle (fun r hr => ?_) ?_ ?_
    · split at hr
      · have own := Watch.handle_of_mem_nextRequest hr
        exact own
      · simp at hr
    · intro lived
      have worked := lived.work world.host
      rwa [Account.work_eq] at worked
    · rintro ⟨shut, counted⟩
      rw [shut.work]
      exact ⟨shut, counted⟩

/-! ## Dispatch -/

/-- A pass hands on the messages that come in time, except those without changes. -/
theorem seen_run (ended : Message → Bool) (fails : Nat → Bool) (messages : List Message) :
    (Pass.run ended fails messages).seen =
      messages.filter fun m => !ended m && m.status ≠ .noChanges := by
  have folded : ∀ p : Pass, (messages.foldl (Pass.step ended fails) p).seen =
      p.seen ++ messages.filter fun m => !ended m && m.status ≠ .noChanges := by
    induction messages with
    | nil => exact fun p => (List.append_nil _).symm
    | cons m rest ih =>
      intro p
      rw [List.foldl_cons, ih, Pass.step]
      split
      · next late => rw [List.filter_cons_of_neg (by simp [late])]
      · next in_time =>
        split
        · next nothing => rw [List.filter_cons_of_neg (by simp [nothing])]
        · next something =>
          rw [List.filter_cons_of_pos (by simp [in_time, something])]
          exact List.append_assoc ..
  exact folded Pass.start

/-- Of the messages of a watch that has not ended, those without changes are left out; those of one
that has ended all are. -/
theorem payloads_seen {ended : Message → Bool} {k : Handle} {late : Bool}
    (own : ∀ m : Message, m.handle = k → ended m = late) (messages : List Message) :
    payloads k (messages.filter fun m => !ended m && m.status ≠ .noChanges) =
      (payloads k messages).filter fun p => !late && p.status ≠ .noChanges := by
  rw [payloads, payloads, List.filter_map, List.filter_filter, List.filter_filter]
  congr 1
  refine List.filter_congr fun m _ => ?_
  by_cases named : m.handle = k
  · simp only [named, own m named, decide_true, Bool.true_and, Bool.and_true, Function.comp_apply]
    rfl
  · simp [named]

theorem Accounted.dispatched (h : world.Accounted loose) (fails : Nat → Bool) :
    (world.dispatched (world.session.dispatchPending fails).1
      (world.session.dispatchPending fails).2).Accounted loose where
  distinct := h.distinct
  below := h.below
  known := h.known
  lived w hw is_active := by
    have is_active : w.handle ∈ world.session.active := is_active
    have lives := h.lived w hw is_active
    obtain ⟨root, stage, j, l, holds⟩ := lives.holds
    have not_torn : world.session.tornDown = false := by
      cases torn : world.session.tornDown with
      | false => rfl
      | true =>
        rw [h.torn torn] at is_active
        simp at is_active
    -- the messages of an active watch all come in time: it is open, and so is the session
    have in_time : ∀ m : Message, m.handle = w.handle → world.session.isEnded m = false := by
      intro m own
      have open_still : w.closed = false := holds.stands.not_closed
      rw [Session.isEnded, own, Session.watch?_of_mem h.distinct hw, not_torn]
      simpa using open_still
    have next : (world.dispatched (world.session.dispatchPending fails).1
        (world.session.dispatchPending fails).2).account w = (world.account w).dispatch := by
      simp only [account, Account.dispatch, sentBy, queuedBy, seenBy, arrivalsAt, requestsOf,
        World.dispatched, payloads_append, Session.dispatchPending, seen_run,
        payloads_seen in_time]
      rfl
    rw [next]
    exact lives.dispatch
  ended := h.ended
  torn := h.torn
  fresh w later := by
    have before := h.fresh w later
    simp only [account, Account.mk.injEq, true_and] at before ⊢
    obtain ⟨sent, queued, seen, arrivals, requests⟩ := before
    refine ⟨sent, rfl, ?_, arrivals, requests⟩
    have none_queued := payloads_eq_nil_iff.mp queued
    rw [seenBy, World.dispatched, payloads_append, List.append_eq_nil_iff]
    refine ⟨seen, payloads_eq_nil_iff.mpr fun e he => ?_⟩
    rw [Session.dispatchPending, seen_run] at he
    exact none_queued e (List.mem_filter.mp he).1

end World

end DirWatch
