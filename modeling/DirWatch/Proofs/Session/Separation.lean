import DirWatch.Proofs.Session.Answers

/-!
# Watches do not interfere

All watches of a session share its queue, its totals and the handler. Still what becomes of one of
them depends neither on what happens to the others nor on what the handler answers:
`World.SameFor` compares two worlds as far as one watch is concerned, acts of other watches keep a
world the same (`World.Accounted.same_apart`), everything else keeps two worlds alike
(`World.SameFor.step`), and `World.separation` follows for whole runs.
-/

namespace DirWatch

namespace Session

variable {s : Session}

/-- Looking a handle up when one watch has joined the others. -/
theorem watch?_append (s : Session) (w : Watch) (active : List Handle) (h : Handle) :
    ({ s with watches := s.watches ++ [w], active } : Session).watch? h =
      (s.watch? h).or (if w.handle = h then some w else none) := by
  show (s.watches ++ [w]).find? (fun v => v.handle == h) = _
  rw [List.find?_append]
  congr 1
  by_cases named : w.handle = h
  · rw [if_pos named, List.find?_cons_of_pos (by simpa using named)]
  · rw [if_neg named, List.find?_cons_of_neg (by simpa using named), List.find?_nil]

/-- Looking a handle up when the active watches have been closed. -/
theorem watch?_teardown (s : Session) (h : Handle) :
    s.teardown.2.watch? h =
      (s.watch? h).map fun w => if s.contains h then w.close else w := by
  show (s.watches.map fun w => if s.contains w.handle then w.close else w).find?
    (fun w => w.handle == h) = _
  have looks : ((fun w : Watch => w.handle == h) ∘
      fun w => if s.contains w.handle then w.close else w) = fun w => w.handle == h := by
    funext w
    rw [Function.comp_apply]
    split
    · rw [w.handle_close]
    · rfl
  rw [List.find?_map, looks]
  show (s.watch? h).map _ = (s.watch? h).map _
  cases found : s.watch? h with
  | none => rfl
  | some w => rw [Option.map_some, Option.map_some, (mem_of_watch? found).2]

/-! ## Edits -/

/-- The watch that an act concerns, if it concerns only one that is there already. -/
def Act.watch? : Session.Act → Option Handle
  | .unregister h | .deliver h _ | .work h | .callBack h => some h
  | _ => none

/-- The same act, if the handler answers with `fails`. -/
def Act.answering (fails : Nat → Bool) : Session.Act → Session.Act
  | .dispatch _ => .dispatch fails
  | .dispatchNext _ => .dispatchNext fails
  | act => act

/-- What becomes of an act of a run where only the watch `h` matters: the handler may answer
differently, and an act of another watch may be left out. -/
inductive Edit (h : Handle) where
  | keep (act : Session.Act) (fails : Nat → Bool)
  | leaveOut (act : Session.Act) (k : Handle) (concerns : act.watch? = some k) (other : k ≠ h)

namespace Edit

variable {h : Handle}

def before : Edit h → Session.Act
  | .keep act _ => act
  | .leaveOut act _ _ _ => act

def after : Edit h → List Session.Act
  | .keep act fails => [act.answering fails]
  | .leaveOut _ _ _ _ => []

end Edit

end Session

namespace World

variable {world world' world'' : World} {h : Handle}

/-! ## The same for one watch -/

/-- Two worlds that are the same as far as one watch is concerned: the watch itself with its
directory, journal and counters, what the handler has been told of it, and what is queued. -/
structure SameFor (h : Handle) (world world' : World) : Prop where
  watch : world'.session.watch? h = world.session.watch? h
  active : h ∈ world'.session.active ↔ h ∈ world.session.active
  seen : world'.seenBy h = world.seenBy h
  queued : world'.queuedBy h = world.queuedBy h
  host : world'.host = world.host
  config : world'.session.config = world.session.config
  tornDown : world'.session.tornDown = world.session.tornDown

theorem SameFor.refl (h : Handle) (world : World) : world.SameFor h world :=
  ⟨rfl, .rfl, rfl, rfl, rfl, rfl, rfl⟩

theorem SameFor.symm (same : world.SameFor h world') : world'.SameFor h world :=
  ⟨same.watch.symm, same.active.symm, same.seen.symm, same.queued.symm, same.host.symm,
    same.config.symm, same.tornDown.symm⟩

theorem SameFor.trans (same : world.SameFor h world') (same' : world'.SameFor h world'') :
    world.SameFor h world'' :=
  ⟨same'.watch.trans same.watch, same'.active.trans same.active, same'.seen.trans same.seen,
    same'.queued.trans same.queued, same'.host.trans same.host, same'.config.trans same.config,
    same'.tornDown.trans same.tornDown⟩

theorem SameFor.contains (same : world.SameFor h world') :
    world'.session.contains h = world.session.contains h := by
  rw [Bool.eq_iff_iff]
  simpa [Session.contains] using same.active

/-- A message of the watch is late in both worlds or in none. -/
theorem SameFor.isEnded (same : world.SameFor h world') {m : Message} (own : m.handle = h) :
    world'.session.isEnded m = world.session.isEnded m := by
  rw [Session.isEnded, Session.isEnded, own, same.watch, same.tornDown]

/-! ## Acts of other watches -/

/-- What another watch reports is not queued for this one. -/
theorem queuedBy_absorb_of_ne {k : Handle} (other : k ≠ h) (reports : List Payload) (w : Watch) :
    payloads h (world.session.absorb k reports w).queue = world.queuedBy h := by
  show payloads h (world.session.queue ++ reports.map fun p => ⟨k, p⟩) = world.queuedBy h
  rw [payloads_append, payloads_reports, if_neg other, List.append_nil]
  rfl

/-- What another watch does changes nothing for this one, if it leaves the host alone. -/
theorem same_absorb {k : Handle} (other : k ≠ h) {w w' : Watch} {reports : List Payload}
    {requests : List Watch} (found : world.session.watch? k = some w)
    (named : w'.handle = w.handle) :
    world.SameFor h (world.absorb (world.session.absorb k reports w', world.host) requests) := by
  refine ⟨?_, .rfl, rfl, queuedBy_absorb_of_ne other reports w', rfl, rfl, rfl⟩
  have keeps : ∀ v : Watch, v.handle = k → w'.handle = k :=
    fun _ _ => named.trans (Session.mem_of_watch? found).2
  show (world.session.update k fun _ => w').watch? h = _
  rw [Session.watch?_update _ k h keeps, if_neg other.symm]

/-- Nothing that happens to another watch matters to this one. -/
theorem Accounted.same_apart (accounted : world.Accounted true) {act : Session.Act} {k : Handle}
    (concerns : act.watch? = some k) (other : k ≠ h) : world.SameFor h (world.step act) := by
  cases act with
  | unregister k' =>
    obtain rfl := Option.some.inj concerns
    rw [World.step, Session.unregister]
    split
    · refine ⟨?_, ?_, rfl, rfl, rfl, rfl, rfl⟩
      · show (world.session.update k' Watch.close).watch? h = _
        rw [Session.watch?_update _ k' h fun v named => v.handle_close.trans named,
          if_neg other.symm]
      · show h ∈ world.session.active.filter (fun a => a != k') ↔ _
        simp [other.symm]
    · exact .refl h world
  | deliver k' delivery =>
    obtain rfl := Option.some.inj concerns
    refine ⟨?_, .rfl, rfl, rfl, rfl, rfl, rfl⟩
    show (world.session.update k' (Watch.deliver world.host.tree.pathExists · delivery)).watch? h = _
    rw [Session.watch?_update _ k' h fun v named => (Watch.alike_deliver _ v delivery).handle.trans
      named, if_neg other.symm]
  | work k' =>
    obtain rfl := Option.some.inj concerns
    have same_host := (accounted.same_host k').1
    rw [World.step]
    rw [Session.work] at same_host ⊢
    cases found : world.session.watch? k' with
    | none => exact ⟨rfl, .rfl, rfl, rfl, rfl, rfl, rfl⟩
    | some w =>
      rw [found] at same_host
      dsimp only at same_host ⊢
      rw [same_host]
      exact same_absorb other found (Watch.alike_work w world.host).handle
  | callBack k' =>
    obtain rfl := Option.some.inj concerns
    have same_host := (accounted.same_host k').2
    rw [World.step]
    rw [Session.callBack] at same_host ⊢
    cases found : world.session.watch? k' with
    | none => exact ⟨rfl, .rfl, rfl, rfl, rfl, rfl, rfl⟩
    | some w =>
      rw [found] at same_host
      dsimp only at same_host ⊢
      rw [same_host]
      exact same_absorb other found (Watch.alike_onReadComplete w world.host).handle
  | _ => contradiction

/-! ## Acts of the watch and of the session -/

theorem SameFor.enroll {outcome outcome' : Except RegisterError Handle × Session × Host}
    (same : world.SameFor h world')
    (sessions : { world with session := outcome.2.1, host := outcome.2.2 }.SameFor h
      { world' with session := outcome'.2.1, host := outcome'.2.2 }) :
    (world.enroll outcome).SameFor h (world'.enroll outcome') := by
  obtain ⟨answer, session, host⟩ := outcome
  obtain ⟨answer', session', host'⟩ := outcome'
  have seen := same.seen
  cases answer <;> cases answer' <;>
    exact ⟨sessions.watch, sessions.active, seen, sessions.queued, sessions.host, sessions.config,
      sessions.tornDown⟩

/-- A registration is the same in both worlds: it is admitted in both or in none, and makes the same
watch. -/
theorem SameFor.register (same : world.SameFor h world') (path : String) (includeSubtree : Bool)
    (filter : Filter) (patterns : List String) :
    (world.enroll (world.session.register world.host path includeSubtree filter patterns)).SameFor h
      (world'.enroll
        (world'.session.register world'.host path includeSubtree filter patterns)) := by
  apply same.enroll
  have admission : world'.session.admission path includeSubtree filter patterns =
      world.session.admission path includeSubtree filter patterns := by
    rw [Session.admission, Session.admission, same.tornDown, same.config]
  rw [Session.register_eq, Session.register_eq, admission, same.host]
  cases world.session.admission path includeSubtree filter patterns with
  | error e => exact ⟨same.watch, same.active, same.seen, same.queued, rfl, same.config,
      same.tornDown⟩
  | ok settings =>
    dsimp only
    generalize Watch.setUp settings world.host = outcome
    obtain ⟨answer, host⟩ := outcome
    cases answer with
    | error e => exact ⟨same.watch, same.active, same.seen, same.queued, rfl, same.config,
        same.tornDown⟩
    | ok w =>
      refine ⟨?_, ?_, same.seen, same.queued, rfl, same.config, same.tornDown⟩
      · show Session.watch? { world'.session with
            watches := world'.session.watches ++ [w]
            active := world'.session.active ++ [w.handle] } h =
          Session.watch? { world.session with
            watches := world.session.watches ++ [w]
            active := world.session.active ++ [w.handle] } h
        rw [Session.watch?_append, Session.watch?_append, same.watch]
      · show h ∈ world'.session.active ++ [w.handle] ↔ h ∈ world.session.active ++ [w.handle]
        rw [List.mem_append, List.mem_append, same.active]

theorem SameFor.unregister (same : world.SameFor h world') :
    (world.step (.unregister h)).SameFor h (world'.step (.unregister h)) := by
  have keeps : ∀ v : Watch, v.handle = h → v.close.handle = h :=
    fun v named => v.handle_close.trans named
  rw [World.step, World.step, Session.unregister, Session.unregister, same.contains]
  split
  · refine ⟨?_, ?_, same.seen, same.queued, same.host, same.config, same.tornDown⟩
    · show (world'.session.update h Watch.close).watch? h =
        (world.session.update h Watch.close).watch? h
      rw [Session.watch?_update _ h h keeps, Session.watch?_update _ h h keeps, same.watch]
    · show h ∈ world'.session.active.filter (fun a => a != h) ↔
        h ∈ world.session.active.filter fun a => a != h
      simp
  · exact same

theorem SameFor.teardown (same : world.SameFor h world') :
    (world.step .teardown).SameFor h (world'.step .teardown) := by
  refine ⟨?_, .rfl, same.seen, rfl, same.host, same.config, rfl⟩
  show world'.session.teardown.2.watch? h = world.session.teardown.2.watch? h
  rw [Session.watch?_teardown, Session.watch?_teardown, same.watch, same.contains]

theorem SameFor.deliver (same : world.SameFor h world') (delivery : Delivery) :
    (world.step (.deliver h delivery)).SameFor h (world'.step (.deliver h delivery)) := by
  refine ⟨?_, same.active, same.seen, same.queued, same.host, same.config, same.tornDown⟩
  have keeps : ∀ present, ∀ v : Watch, v.handle = h → (v.deliver present delivery).handle = h :=
    fun present v named => (Watch.alike_deliver present v delivery).handle.trans named
  show (world'.session.update h (Watch.deliver world'.host.tree.pathExists · delivery)).watch? h =
    (world.session.update h (Watch.deliver world.host.tree.pathExists · delivery)).watch? h
  rw [Session.watch?_update _ h h (keeps _), Session.watch?_update _ h h (keeps _), same.watch,
    same.host]

/-- If a watch does the same in both worlds, they stay alike. -/
theorem SameFor.absorb (same : world.SameFor h world') {w w' : Watch}
    (found : world.session.watch? h = some w) (named : w'.handle = w.handle)
    (reports : List Payload) (host : Host) (requests requests' : List Watch) :
    (world.absorb (world.session.absorb h reports w', host) requests).SameFor h
      (world'.absorb (world'.session.absorb h reports w', host) requests') := by
  have keeps : ∀ v : Watch, v.handle = h → w'.handle = h :=
    fun _ _ => named.trans (Session.mem_of_watch? found).2
  refine ⟨?_, same.active, same.seen, ?_, rfl, same.config, same.tornDown⟩
  · show (world'.session.update h fun _ => w').watch? h =
      (world.session.update h fun _ => w').watch? h
    rw [Session.watch?_update _ h h keeps, Session.watch?_update _ h h keeps, same.watch]
  · show payloads h (world'.session.queue ++ _) = payloads h (world.session.queue ++ _)
    rw [payloads_append, payloads_append]
    exact congrArg (· ++ _) same.queued

theorem SameFor.work (same : world.SameFor h world') :
    (world.step (.work h)).SameFor h (world'.step (.work h)) := by
  rw [World.step, World.step, Session.work, Session.work, same.watch, same.host]
  cases found : world.session.watch? h with
  | none => exact ⟨same.watch, same.active, same.seen, same.queued, rfl, same.config, same.tornDown⟩
  | some w =>
    exact same.absorb found (Watch.alike_work w world.host).handle _ _ _ _

theorem SameFor.callBack (same : world.SameFor h world') :
    (world.step (.callBack h)).SameFor h (world'.step (.callBack h)) := by
  rw [World.step, World.step, Session.callBack, Session.callBack, same.watch, same.host]
  cases found : world.session.watch? h with
  | none => exact ⟨same.watch, same.active, same.seen, same.queued, rfl, same.config, same.tornDown⟩
  | some w =>
    exact same.absorb found (Watch.alike_onReadComplete w world.host).handle _ _ _ _

/-- What the handler is told of a watch depends neither on the messages of others nor on what the
handler answers. -/
theorem SameFor.dispatched (same : world.SameFor h world') (fails fails' : Nat → Bool) :
    (world.dispatched (world.session.dispatchPending fails).1
      (world.session.dispatchPending fails).2).SameFor h
      (world'.dispatched (world'.session.dispatchPending fails').1
        (world'.session.dispatchPending fails').2) := by
  refine ⟨same.watch, same.active, ?_, rfl, same.host, same.config, same.tornDown⟩
  have own : ∀ m : Message, m.handle = h →
      world.session.isEnded m = world.session.isEnded ⟨h, .changes []⟩ := by
    intro m named
    rw [Session.isEnded, Session.isEnded, named]
  have own' : ∀ m : Message, m.handle = h →
      world'.session.isEnded m = world.session.isEnded ⟨h, .changes []⟩ := by
    intro m named
    rw [same.isEnded named, own m named]
  show payloads h (world'.seen ++ (Pass.run _ fails' world'.session.queue).seen) =
    payloads h (world.seen ++ (Pass.run _ fails world.session.queue).seen)
  rw [payloads_append, payloads_append, seen_run, seen_run, payloads_seen own, payloads_seen own']
  show world'.seenBy h ++ List.filter _ (world'.queuedBy h) =
    world.seenBy h ++ List.filter _ (world.queuedBy h)
  rw [same.seen, same.queued]

/-- Waiting for messages and then dispatching leaves a watch as a dispatch at once would. -/
theorem same_dispatchNext (world : World) (h : Handle) (fails : Nat → Bool) :
    (world.step (.dispatch fails)).SameFor h (world.step (.dispatchNext fails)) := by
  rcases world.session.dispatchNext_cases fails with ⟨nothing, waits⟩ | dispatches
  · have none_queued : world.queuedBy h = [] := by
      rw [queuedBy, nothing]
      rfl
    rw [World.step, World.step, waits]
    refine ⟨rfl, .rfl, ?_, none_queued, rfl, rfl, rfl⟩
    show world.seenBy h = payloads h (world.seen ++ (Pass.run _ fails world.session.queue).seen)
    rw [nothing]
    exact congrArg (payloads h) (List.append_nil _).symm
  · rw [World.step, World.step, dispatches]
    exact .refl h _

/-- Whatever happens in both worlds keeps them alike, whatever the handler answers. -/
theorem SameFor.step (same : world.SameFor h world') (accounted : world.Accounted true)
    (accounted' : world'.Accounted true) (act : Session.Act) (fails : Nat → Bool) :
    (world.step act).SameFor h (world'.step (act.answering fails)) := by
  -- an act of another watch changes nothing in either world
  have apart : ∀ k, act.watch? = some k → k ≠ h → (world.step act).SameFor h (world'.step act) :=
    fun k concerns other => ((accounted.same_apart concerns other).symm.trans same).trans
      (accounted'.same_apart concerns other)
  cases act with
  | register path includeSubtree filter patterns =>
    exact same.register path includeSubtree filter patterns
  | watch path =>
    have registered := same.register path world.session.config.includeSubtree
      world.session.config.filter []
    show (world.step (.watch path)).SameFor h (world'.enroll (world'.session.register world'.host
      path world'.session.config.includeSubtree world'.session.config.filter []))
    rw [same.config]
    exact registered
  | unregister k =>
    by_cases own : k = h
    · subst own
      exact same.unregister
    · exact apart k rfl own
  | teardown => exact same.teardown
  | deliver k delivery =>
    by_cases own : k = h
    · subst own
      exact same.deliver delivery
    · exact apart k rfl own
  | work k =>
    by_cases own : k = h
    · subst own
      exact same.work
    · exact apart k rfl own
  | callBack k =>
    by_cases own : k = h
    · subst own
      exact same.callBack
    · exact apart k rfl own
  | dispatch fails' => exact same.dispatched fails' fails
  | dispatchNext fails' =>
    exact ((world.same_dispatchNext h fails').symm.trans (same.dispatched fails' fails)).trans
      (world'.same_dispatchNext h fails)
  | surroundings host =>
    refine ⟨same.watch, same.active, same.seen, same.queued, ?_, same.config, same.tornDown⟩
    show { host with nextHandle := max host.nextHandle world'.host.nextHandle } =
      { host with nextHandle := max host.nextHandle world.host.nextHandle }
    rw [same.host]

/-! ## Runs -/

theorem SameFor.run (same : world.SameFor h world') (accounted : world.Accounted true)
    (accounted' : world'.Accounted true) (edits : List (Session.Edit h)) :
    (world.run (edits.map Session.Edit.before)).SameFor h
      (world'.run (edits.flatMap Session.Edit.after)) := by
  induction edits generalizing world world' with
  | nil => exact same
  | cons edit rest ih =>
    have stays : ∀ {w : World}, w.Accounted true → ∀ act, (w.step act).Accounted true :=
      fun accounted act => accounted.step act fun strict => by simp at strict
    rw [List.map_cons, List.flatMap_cons, run_append]
    cases edit with
    | keep act fails =>
      exact ih (same.step accounted accounted' act fails) (stays accounted act)
        (stays accounted' (act.answering fails))
    | leaveOut act k concerns other =>
      have apart := accounted.same_apart concerns other
      exact ih (apart.symm.trans same) (stays accounted act) accounted'

/-- Two runs of a session, of which the second one leaves out any acts of other watches than `h` and
has the handler answer otherwise, are the same for `h` at any time: the handler is told the same of
it in the same order, it has the same counters, journal and state, and it is active in both or in
none. -/
theorem separation (config : MonitorConfig) (host : Host) (h : Handle)
    (edits : List (Session.Edit h)) (n : Nat) :
    ((start config host).run ((edits.take n).map Session.Edit.before)).SameFor h
      ((start config host).run ((edits.take n).flatMap Session.Edit.after)) :=
  SameFor.run (.refl h _) (accounted_start config host) (accounted_start config host) (edits.take n)

end World

end DirWatch
