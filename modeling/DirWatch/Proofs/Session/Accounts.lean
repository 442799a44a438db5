import DirWatch.Proofs.Session.Activity

/-!
# The watches of a session

Watches join a session and are ended by it: registrations, removals and the teardown keep
`World.Accounted`. `World.Accounted.step` says that whatever happens keeps it, and
`World.Reachable.accounted` that it holds after every run.
-/

namespace DirWatch

namespace World

variable {loose : Bool} {world world' : World}

/-! ## Registrations -/

/-- The host may change in any way, if it gives no number again. -/
theorem Accounted.rehost (h : world.Accounted loose) {host : Host}
    (numbers : world.host.nextHandle ≤ host.nextHandle) :
    ({ world with host } : World).Accounted loose where
  distinct := h.distinct
  below w hw := Nat.lt_of_lt_of_le (h.below w hw) numbers
  known := h.known
  lived := h.lived
  ended := h.ended
  torn := h.torn
  fresh w later := h.fresh w (Nat.le_trans numbers later)

/-- What is written down when a watch joins under a handle: its first request, and what arrives with
it. -/
theorem enroll_ok {session : Session} {k : Handle} {w : Watch} (found : session.watch? k = some w)
    (host : Host) : world.enroll (.ok k, session, host) = { world with
      session
      host
      arrivals := world.arrivals ++
        ((Watch.firstRequest w.settings world.host).firstArrival world.host).map fun x => (k, x)
      requests := world.requests ++ [Watch.firstRequest w.settings world.host] } := by
  simp only [World.enroll, found, Option.toList_some, List.map_singleton, List.flatMap_singleton]

/-- Nothing was written down under a number that is still to come, so that the account of the watch
that joins under it is an opening one. -/
theorem Accounted.opens (h : world.Accounted loose) {settings : WatchSettings} {w : Watch}
    (later : world.host.nextHandle ≤ w.handle.number)
    (own : (Watch.firstRequest settings world.host).handle = w.handle)
    (arrivals : world'.arrivals = world.arrivals ++
      ((Watch.firstRequest settings world.host).firstArrival world.host).map
        fun x => (w.handle, x))
    (requests : world'.requests = world.requests ++ [Watch.firstRequest settings world.host])
    (sent : world'.sent = world.sent) (seen : world'.seen = world.seen)
    (queue : world'.session.queue = world.session.queue) :
    world'.account w = Account.opening settings world.host w := by
  have before := h.fresh w later
  simp only [account, Account.mk.injEq, true_and, sentBy, queuedBy, seenBy, arrivalsAt,
    requestsOf] at before
  obtain ⟨none_sent, none_queued, none_seen, none_arrived, none_asked⟩ := before
  simp only [account, sentBy, queuedBy, seenBy, arrivalsAt, requestsOf, sent, seen, queue, arrivals,
    requests, noted_append, noted_pairs, if_pos, List.filter_append, none_sent, none_queued,
    none_seen, none_arrived, none_asked, List.nil_append, Account.opening]
  rw [List.filter_cons_of_pos (by simp [own]), List.filter_nil]

/-- A watch that has been set up joins the session. -/
theorem Accounted.join (h : world.Accounted loose) (not_torn : world.session.tornDown = false)
    {settings : WatchSettings} {w : Watch} {host : Host} {root : RawPath}
    (set_up : Watch.setUp settings world.host = (.ok w, host))
    (numbers : host.nextHandle = world.host.nextHandle + 1)
    (started : Watch.Started settings world.host root w) :
    (world.enroll (.ok w.handle, { world.session with
      watches := world.session.watches ++ [w]
      active := world.session.active ++ [w.handle] }, host)).Accounted loose := by
  have number : w.handle.number = world.host.nextHandle := by rw [started.handle]
  have own : (Watch.firstRequest settings world.host).handle = w.handle := by
    rw [started.request, started.handle]
    rfl
  -- no watch has the next number yet, so that looking it up finds the one that joins
  have unknown : world.session.watch? w.handle = none := by
    rw [started.handle]
    exact h.next_unknown
  have found : Session.watch? { world.session with
      watches := world.session.watches ++ [w]
      active := world.session.active ++ [w.handle] } w.handle = some w :=
    Session.watch?_append_self unknown _
  rw [enroll_ok found host, started.same_settings]
  refine h.add (w := w) rfl rfl not_torn numbers number ?_ ?_
  · intro v other
    simp only [account, sentBy, queuedBy, seenBy, arrivalsAt, requestsOf, noted_append,
      noted_pairs, if_neg (Ne.symm other), List.append_nil, List.filter_append]
    rw [List.filter_cons_of_neg (by simp [own, Ne.symm other]), List.filter_nil, List.append_nil]
  · rw [h.opens (Nat.le_of_eq number.symm) own]
    · exact .opening set_up
    all_goals rfl

theorem Accounted.register (h : world.Accounted loose) (path : String) (includeSubtree : Bool)
    (filter : Filter) (patterns : List String) :
    (world.enroll (world.session.register world.host path includeSubtree filter
      patterns)).Accounted loose := by
  rw [Session.register]
  split
  · exact h.rehost (Nat.le_refl _)
  · next not_torn =>
    split
    · exact h.rehost (Nat.le_refl _)
    · split
      · exact h.rehost (Nat.le_refl _)
      · -- a watch that cannot be set up uses up its number, and nothing else of it is left
        next settings _ =>
        rcases Watch.setUp_cases (Watch.settingsFor world.session.config path includeSubtree filter
          _) world.host with ⟨e, w, host, set_up, numbers, -⟩ |
          ⟨root, w, host, set_up, numbers, started⟩
        · rw [set_up]
          exact h.rehost (by omega)
        · rw [set_up]
          exact h.join (by simpa using not_torn) set_up numbers started

/-! ## Endings -/

/-- An active watch that is closed holds nothing any more. -/
theorem Accounted.close (h : world.Accounted loose) {w : Watch} (mem : w ∈ world.session.watches)
    (is_active : w.handle ∈ world.session.active) :
    w.close.handle = w.handle ∧ w.close.Shut ∧ w.close.Counted := by
  obtain ⟨root, stage, j, l, holds⟩ := (h.lived w mem is_active).holds
  have not_closed : w.closed = false := holds.stands.not_closed
  obtain ⟨handle, shut⟩ := Watch.close_spec not_closed
  exact ⟨handle, shut, holds.counted.close not_closed⟩

/-- Some of the active watches are closed. -/
theorem Accounted.endSome (h : world.Accounted loose) (ends : Handle → Bool)
    (known : ∀ k, ends k = true → k ∈ world.session.active)
    (watches : world'.session.watches =
      world.session.watches.map fun v => if ends v.handle then v.close else v)
    (active : world'.session.active = world.session.active.filter fun k => !ends k)
    (torn : world'.session.tornDown = true → world'.session.active = [])
    (numbers : world'.host.nextHandle = world.host.nextHandle)
    (accounts : ∀ v : Watch, v.handle ∈ world'.session.active → world'.account v = world.account v)
    (fresh : ∀ v : Watch, world.account v = ⟨v, [], [], [], [], []⟩ →
      world'.account v = ⟨v, [], [], [], [], []⟩) : world'.Accounted loose := by
  have handles : ∀ v ∈ world.session.watches,
      (if ends v.handle then v.close else v).handle = v.handle := by
    intro v hv
    split
    · next ending => exact (h.close hv (known _ ending)).1
    · rfl
  have origin : ∀ v' ∈ world'.session.watches, ∃ v ∈ world.session.watches,
      v'.handle = v.handle ∧ v' = if ends v.handle then v.close else v := by
    intro v' hv'
    rw [watches] at hv'
    obtain ⟨v, hv, rfl⟩ := List.mem_map.mp hv'
    exact ⟨v, hv, handles v hv, rfl⟩
  obtain ⟨distinct, below, still_known⟩ := h.handles watches numbers handles
  refine ⟨distinct, below, ?_, ?_, ?_, torn, ?_⟩
  · intro k hk
    rw [active] at hk
    exact still_known k (List.mem_filter.mp hk).1
  · intro v' hv' is_active
    obtain ⟨v, hv, handle, rfl⟩ := origin v' hv'
    have still := is_active
    rw [handle, active, List.mem_filter] at still
    have open_still : ends v.handle = false := by simpa using still.2
    rw [accounts _ is_active]
    simp only [open_still, Bool.false_eq_true, if_false]
    exact h.lived v hv still.1
  · intro v' hv' not_active
    obtain ⟨v, hv, handle, rfl⟩ := origin v' hv'
    rw [handle, active, List.mem_filter] at not_active
    split
    · next ending => exact (h.close hv (known _ ending)).2
    · next open_still =>
      exact h.ended v hv fun is_active => not_active ⟨is_active, by simpa using open_still⟩
  · intro v later
    rw [numbers] at later
    exact fresh v (h.fresh v later)

theorem Accounted.unregister (h : world.Accounted loose) (k : Handle) :
    (world.step (.unregister k)).Accounted loose := by
  cases contained : world.session.contains k with
  | false =>
    have same : world.step (.unregister k) = world := by
      simp only [step, Session.unregister, contained]
      rfl
    rwa [same]
  | true =>
    have is_active : k ∈ world.session.active := by simpa [Session.contains] using contained
    have stepped : world.step (.unregister k) = { world with
        session := { world.session.update k Watch.close with
          active := world.session.active.filter fun a => a != k } } := by
      simp only [step, Session.unregister, contained, if_true]
    rw [stepped]
    refine h.endSome (fun a => a == k) (fun a named => ?_) ?_ ?_ ?_ rfl ?_ ?_
    · rw [show a = k by simpa using named]
      exact is_active
    · simp [Session.update]
    · rfl
    · intro torn
      have none_active : world.session.active = [] := h.torn torn
      rw [none_active] at is_active
      simp at is_active
    · exact fun v _ => rfl
    · exact fun v before => before

theorem Accounted.teardown (h : world.Accounted loose) :
    (world.step .teardown).Accounted loose := by
  refine h.endSome (fun a => world.session.contains a) (fun a contained => ?_) rfl ?_ ?_ rfl
    ?_ ?_
  · simpa [Session.contains] using contained
  · symm
    rw [List.filter_eq_nil_iff.mpr fun a ha => by simp [Session.contains, ha]]
    rfl
  · exact fun _ => rfl
  · intro v is_active
    have none_active : v.handle ∈ ([] : List Handle) := is_active
    simp at none_active
  · intro v before
    simp only [account, Account.mk.injEq, true_and] at before ⊢
    exact ⟨before.1, rfl, before.2.2⟩

/-! ## Runs -/

/-- Whatever happens to a session, its watches are accounted for. -/
theorem Accounted.step (h : world.Accounted loose) (act : Session.Act)
    (strict : loose = false → ∀ k, act ≠ .callBack k) : (world.step act).Accounted loose := by
  cases act with
  | register path includeSubtree filter patterns =>
    exact h.register path includeSubtree filter patterns
  | watch path => exact h.register path _ _ _
  | unregister k => exact h.unregister k
  | teardown => exact h.teardown
  | deliver k delivery => exact h.deliver k delivery
  | work k => exact h.work k
  | callBack k =>
    cases loose with
    | true => exact h.callBack k
    | false => exact absurd rfl (strict rfl k)
  | dispatch fails => exact h.dispatched fails
  | dispatchNext fails =>
    rw [World.step, Session.dispatchNext]
    split
    · exact h
    · next dispatches =>
      split at dispatches
      · simp at dispatches
      · obtain ⟨rfl, rfl⟩ := Prod.mk.inj (Option.some.inj dispatches).symm
        exact h.dispatched fails
  | surroundings host => exact h.rehost (Nat.le_max_right _ _)

theorem Accounted.run (h : world.Accounted loose) (acts : List Session.Act)
    (strict : loose = false → ∀ k, Session.Act.callBack k ∉ acts) :
    (world.run acts).Accounted loose := by
  induction acts generalizing world with
  | nil => exact h
  | cons act rest ih =>
    have here := h.step act fun s k named => strict s k (named ▸ List.mem_cons_self)
    exact ih here fun s k hk => strict s k (List.mem_cons_of_mem _ hk)

/-- The watches of every session that can come about are accounted for. -/
theorem Reachable.accounted (reachable : world.Reachable loose) : world.Accounted loose := by
  obtain ⟨config, host, acts, strict, rfl⟩ := reachable
  exact (accounted_start config host).run acts strict

/-- An active watch with its account. -/
theorem Accounted.activeWatch (h : world.Accounted loose) {k : Handle}
    (active : k ∈ world.session.active) :
    ∃ w, world.session.activeWatch? k = some w ∧ w.handle = k ∧
      (world.account w).Lived loose := by
  obtain ⟨w, mem, rfl⟩ := h.known k active
  refine ⟨w, ?_, rfl, h.lived w mem active⟩
  have contained : world.session.contains w.handle = true := by
    simpa [Session.contains] using active
  rw [Session.activeWatch?, if_pos contained]
  exact Session.watch?_of_mem h.distinct mem

end World

end DirWatch
