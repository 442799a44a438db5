import DirWatch.Proofs.Session.Messages
import DirWatch.Proofs.Watch.Finality

/-!
# What each watch gets of an act

An act in a session comes to something for each of its watches (`World.share`), and to nothing else
for them: `World.shared` says that every watch goes on as its share says and reports what it says,
and that at most one watch joins. This holds of sessions whose directories may be closed under their
watches at any time, too (`Session.Occurrence`).
-/

namespace DirWatch

/-- What can happen to a session whose directories may be closed under their watches. -/
inductive Session.Occurrence where
  | act (act : Session.Act)
  /-- The directory of a watch is closed, as by a backend that dies. -/
  | sever (h : Handle)

/-! ## Numbers are given once -/

theorem Host.nextHandle_observe (host : Host) (root : RawPath) :
    (host.observe root).2.nextHandle = host.nextHandle := by
  rw [observe]
  split <;> rfl

theorem Directory.nextHandle_observe (d : Directory) (host : Host) (subtree : Bool) :
    (d.observe host subtree).2.nextHandle = host.nextHandle := by
  have asked := host.nextHandle_observe d.root
  rw [observe]
  split
  · rfl
  · rfl
  · split
    · next refused =>
      rw [refused] at asked
      exact asked
    · next allowed =>
      rw [allowed] at asked
      exact asked

theorem Directory.nextHandle_read (d : Directory) (host : Host) (buffer : Buffer) (subtree : Bool)
    (filter : Filter) (signal : SignalName) :
    (d.read host buffer subtree filter signal).2.nextHandle = host.nextHandle := by
  by_cases closed : d.observation = .closed
  · rw [read, if_pos closed]
  by_cases idle : d.slot = .idle
  · have observed := ({ d with filter } : Directory).nextHandle_observe host subtree
    rw [read_idle closed idle]
    generalize ({ d with filter } : Directory).observe host subtree = observes at observed ⊢
    rcases observes with ⟨e | observed', host'⟩
    · exact observed
    · exact observed
  · rw [read_busy closed idle]

namespace Watch

variable {w : Watch}

theorem nextHandle_initiateRead (w : Watch) (host : Host) :
    (w.initiateRead host).2.2.nextHandle = host.nextHandle := by
  cases signal : w.signal with
  | none => rw [initiateRead, signal]
  | some l =>
    cases opened : w.directory with
    | none => rw [initiateRead, signal, opened]
    | some d =>
      have read := d.nextHandle_read host w.nextBuffer w.settings.includeSubtree w.settings.filter
        w.signalName
      rw [initiateRead_eq signal opened]
      generalize d.read host w.nextBuffer _ _ _ = outcome at read ⊢
      obtain ⟨⟨d', answer, raised⟩, host'⟩ := outcome
      cases answer with
      | error e => exact read
      | ok => exact read

theorem nextHandle_onReadComplete (w : Watch) (host : Host) :
    (w.onReadComplete host).2.2.nextHandle = host.nextHandle := by
  cases opened : w.directory with
  | none => rw [onReadComplete, opened]
  | some d =>
    have again : ∀ {buffer bytes result w' host'},
        (w.endRead { d with slot := .idle } (.done buffer bytes)).initiateRead host =
          (result, w', host') → host'.nextHandle = host.nextHandle := by
      intro buffer bytes result w' host' asks
      have asked := nextHandle_initiateRead
        (w.endRead { d with slot := .idle } (.done buffer bytes)) host
      rw [asks] at asked
      exact asked
    have happens := called opened host
    generalize w.onReadComplete host = outcome at happens ⊢
    cases happens with
    | idle unfinished => rfl
    | failed finished => rfl
    | closing finished closed => rfl
    | again finished not_closed asks => exact again asks
    | refused finished not_closed asks => exact again asks

theorem nextHandle_work (w : Watch) (host : Host) :
    (w.work host).2.2.nextHandle = host.nextHandle := by
  rw [work]
  split
  · exact nextHandle_onReadComplete _ host
  · rfl

theorem handle_of_mem_asks {share : Share} {r : Watch} (mem : r ∈ w.asks share) :
    r.handle = w.handle := by
  cases share with
  | nothing => exact absurd mem List.not_mem_nil
  | closing => exact absurd mem List.not_mem_nil
  | happening x =>
    cases x with
    | deliver present delivery => exact absurd mem List.not_mem_nil
    | sever => exact absurd mem List.not_mem_nil
    | callBack host => exact handle_of_mem_nextRequest mem
    | work host =>
      rw [asks] at mem
      split at mem
      · exact handle_of_mem_nextRequest (w := w.consumeSignal) mem
      · exact absurd mem List.not_mem_nil

end Watch

namespace World

/-- Lets one thing happen to a session. -/
def meet (world : World) : Session.Occurrence → World
  | .act act => world.step act
  | .sever h => { world with session := world.session.update h Watch.sever }

def meetAll (world : World) (occurrences : List Session.Occurrence) : World :=
  occurrences.foldl meet world

/-- What a watch gets of all that happens. -/
def share (world : World) (w : Watch) : Session.Occurrence → Watch.Share
  | .act (.deliver h delivery) =>
    if w.handle = h then .happening (.deliver world.host.tree.pathExists delivery) else .nothing
  | .act (.work h) => if w.handle = h then .happening (.work world.host) else .nothing
  | .act (.callBack h) => if w.handle = h then .happening (.callBack world.host) else .nothing
  | .act (.unregister h) =>
    if w.handle = h then if world.session.contains h then .closing else .nothing else .nothing
  | .act .teardown => if world.session.contains w.handle then .closing else .nothing
  | .sever h => if w.handle = h then .happening .sever else .nothing
  | _ => .nothing

/-- A watch joins a session, set up as the session is configured, and uses up a number. -/
structure Joins (world : World) (w : Watch) (world' : World) : Prop where
  started : ∃ path includeSubtree filter patterns root, Watch.Started
    (Watch.settingsFor world.session.config path includeSubtree filter patterns) world.host root w
  numbers : world'.host.nextHandle = world.host.nextHandle + 1

/-- Every watch of a session gets its share, and one watch may join. -/
structure Shared (world : World) (o : Session.Occurrence) (world' : World) : Prop where
  watches : ∃ joined, world'.session.watches =
      world.session.watches.map (fun w => (w.receive (world.share w o)).2) ++ joined ∧
    (joined = [] ∨ ∃ w, joined = [w] ∧ world.Joins w world')
  config : world'.session.config = world.session.config
  numbers : world.host.nextHandle ≤ world'.host.nextHandle
  sent : ∀ w ∈ world.session.watches, world'.sentBy w.handle =
    world.sentBy w.handle ++ (w.receive (world.share w o)).1
  requests : ∀ w ∈ world.session.watches, world'.requestsOf w.handle =
    world.requestsOf w.handle ++ w.asks (world.share w o)
  elsewhere : ∀ h, (∀ w ∈ world.session.watches, w.handle ≠ h) →
    world'.sentBy h = world.sentBy h

variable {world world' : World} {o : Session.Occurrence}

/-- Something that no watch has a share in. -/
theorem Shared.still (shares : ∀ w ∈ world.session.watches, world.share w o = .nothing)
    (watches : world'.session.watches = world.session.watches)
    (config : world'.session.config = world.session.config)
    (numbers : world.host.nextHandle ≤ world'.host.nextHandle)
    (sent : world'.sent = world.sent) (requests : world'.requests = world.requests) :
    Shared world o world' := by
  refine ⟨⟨[], ?_, .inl rfl⟩, config, numbers, ?_, ?_, ?_⟩
  · rw [watches, List.append_nil]
    have same : ∀ w ∈ world.session.watches, (w.receive (world.share w o)).2 = w := by
      intro w mem
      rw [shares w mem]
      rfl
    rw [List.map_congr_left same, List.map_id']
  · intro w mem
    rw [shares w mem, sentBy, sent]
    exact (List.append_nil _).symm
  · intro w mem
    rw [shares w mem, requestsOf, requests]
    exact (List.append_nil _).symm
  · intro h _
    rw [sentBy, sent, sentBy]

/-- What the watch with one handle has reported is its own. -/
theorem payloads_one (distinct : (world.session.watches.map Watch.handle).Nodup) {w : Watch}
    (mem : w ∈ world.session.watches) (k : Handle) (f : Watch → List Payload) :
    payloads w.handle ((world.session.watch? k).toList.flatMap fun v => (f v).map fun p => ⟨k, p⟩) =
      if w.handle = k then f w else [] := by
  by_cases own : w.handle = k
  · obtain rfl := own
    rw [Session.watch?_of_mem distinct mem, Option.toList_some, List.flatMap_singleton,
      payloads_reports]
  · rw [if_neg own]
    cases world.session.watch? k with
    | none => rfl
    | some v =>
      rw [Option.toList_some, List.flatMap_singleton, payloads_reports, if_neg (Ne.symm own)]

/-- What the watch with one handle has asked for, it has asked for itself. -/
theorem requests_one (distinct : (world.session.watches.map Watch.handle).Nodup) {w : Watch}
    (mem : w ∈ world.session.watches) (k : Handle) {f : Watch → List Watch}
    (own_requests : ∀ v, ∀ r ∈ f v, r.handle = v.handle) :
    (((world.session.watch? k).toList.flatMap f).filter fun r => r.handle = w.handle) =
      if w.handle = k then f w else [] := by
  by_cases own : w.handle = k
  · obtain rfl := own
    rw [if_pos rfl, Session.watch?_of_mem distinct mem, Option.toList_some, List.flatMap_singleton,
      List.filter_eq_self]
    intro r asked
    exact decide_eq_true (own_requests w r asked)
  · rw [if_neg own]
    cases found : world.session.watch? k with
    | none => rfl
    | some v =>
      obtain ⟨-, rfl⟩ := Session.mem_of_watch? found
      rw [Option.toList_some, List.flatMap_singleton, List.filter_eq_nil_iff]
      intro r asked named
      exact own ((of_decide_eq_true named).symm.trans (own_requests v r asked))

/-- Something in which the watch with one handle has a share. -/
theorem Shared.one (distinct : (world.session.watches.map Watch.handle).Nodup) {k : Handle}
    {x : Watch.Share}
    (shares : ∀ w ∈ world.session.watches,
      world.share w o = if w.handle = k then x else .nothing)
    (watches : world'.session.watches =
      world.session.watches.map fun w => if w.handle = k then (w.receive x).2 else w)
    (config : world'.session.config = world.session.config)
    (numbers : world'.host.nextHandle = world.host.nextHandle)
    (sent : world'.sent = world.sent ++ (world.session.watch? k).toList.flatMap fun w =>
      (w.receive x).1.map fun p => ⟨k, p⟩)
    (requests : world'.requests = world.requests ++
      (world.session.watch? k).toList.flatMap fun w => w.asks x) :
    Shared world o world' := by
  refine ⟨⟨[], ?_, .inl rfl⟩, config, Nat.le_of_eq numbers.symm, ?_, ?_, ?_⟩
  · rw [watches, List.append_nil]
    apply List.map_congr_left
    intro w mem
    rw [shares w mem]
    by_cases own : w.handle = k
    · rw [if_pos own, if_pos own]
    · rw [if_neg own, if_neg own]
      rfl
  · intro w mem
    rw [shares w mem, sentBy, sent, payloads_append,
      payloads_one distinct mem k fun w => (w.receive x).1]
    by_cases own : w.handle = k
    · rw [if_pos own, if_pos own]
      rfl
    · rw [if_neg own, if_neg own]
      rfl
  · intro w mem
    rw [shares w mem, requestsOf, requests, List.filter_append,
      requests_one distinct mem k fun v _ asked => Watch.handle_of_mem_asks asked]
    by_cases own : w.handle = k
    · rw [if_pos own, if_pos own]
      rfl
    · rw [if_neg own, if_neg own]
      rfl
  · intro h stranger
    rw [sentBy, sent, payloads_append]
    cases found : world.session.watch? k with
    | none => exact List.append_nil _
    | some w =>
      obtain ⟨mem, rfl⟩ := Session.mem_of_watch? found
      rw [Option.toList_some, List.flatMap_singleton, payloads_reports,
        if_neg (stranger w mem), List.append_nil]
      rfl

/-- The watch with a handle changes, with what it reports. -/
theorem watches_absorb (distinct : (world.session.watches.map Watch.handle).Nodup) {k : Handle}
    {w : Watch} (found : world.session.watch? k = some w) (f : Watch → List Payload × Watch) :
    (world.session.absorb k (f w).1 (f w).2).watches =
      world.session.watches.map fun v => if v.handle = k then (f v).2 else v := by
  apply List.map_congr_left
  intro v mem
  by_cases own : v.handle = k
  · -- handles are given once, so that this is the watch that was found
    have same := Session.watch?_of_mem distinct mem
    rw [own, found] at same
    rw [if_pos own, if_pos own, Option.some.inj same]
  · rw [if_neg own, if_neg own]

/-- The worker or the callback of the watch with one handle runs. -/
theorem Shared.runs (distinct : (world.session.watches.map Watch.handle).Nodup) {k : Handle}
    {x : Watch.Happening}
    (shares : ∀ w ∈ world.session.watches,
      world.share w o = if w.handle = k then .happening x else .nothing)
    (unknown : world.session.watch? k = none →
      world'.session = world.session ∧ world'.host = world.host)
    (known : ∀ w, world.session.watch? k = some w →
      world'.session = world.session.absorb k (w.happen x).1 (w.happen x).2 ∧
        world'.host.nextHandle = world.host.nextHandle)
    (sent : world'.sent = world.sent ++ (world.session.watch? k).toList.flatMap fun w =>
      (w.happen x).1.map fun p => ⟨k, p⟩)
    (requests : world'.requests = world.requests ++
      (world.session.watch? k).toList.flatMap fun w => w.asks (.happening x)) :
    Shared world o world' := by
  refine .one distinct shares ?_ ?_ ?_ sent requests
  · cases found : world.session.watch? k with
    | none =>
      rw [(unknown found).1]
      exact (congrArg Session.watches (Session.update_of_watch?_none found _)).symm
    | some w =>
      rw [(known w found).1]
      exact watches_absorb distinct found fun v => v.happen x
  · cases found : world.session.watch? k with
    | none => rw [(unknown found).1]
    | some w =>
      rw [(known w found).1]
      rfl
  · cases found : world.session.watch? k with
    | none => rw [(unknown found).2]
    | some w => exact (known w found).2

theorem shared_work (distinct : (world.session.watches.map Watch.handle).Nodup) (k : Handle) :
    Shared world (.act (.work k)) (world.step (.work k)) := by
  refine .runs distinct (x := .work world.host) (fun w _ => rfl) ?_ ?_
    (world.moves (.work k)).sent rfl
  · intro unknown
    show (world.session.work world.host k).1 = _ ∧ (world.session.work world.host k).2 = _
    rw [Session.work, unknown]
    exact ⟨rfl, rfl⟩
  · intro w found
    show (world.session.work world.host k).1 = _ ∧
      (world.session.work world.host k).2.nextHandle = _
    rw [Session.work, found]
    exact ⟨rfl, w.nextHandle_work world.host⟩

theorem shared_callBack (distinct : (world.session.watches.map Watch.handle).Nodup) (k : Handle) :
    Shared world (.act (.callBack k)) (world.step (.callBack k)) := by
  refine .runs distinct (x := .callBack world.host) (fun w _ => rfl) ?_ ?_
    (world.moves (.callBack k)).sent rfl
  · intro unknown
    show (world.session.callBack world.host k).1 = _ ∧ (world.session.callBack world.host k).2 = _
    rw [Session.callBack, unknown]
    exact ⟨rfl, rfl⟩
  · intro w found
    show (world.session.callBack world.host k).1 = _ ∧
      (world.session.callBack world.host k).2.nextHandle = _
    rw [Session.callBack, found]
    exact ⟨rfl, w.nextHandle_onReadComplete world.host⟩

/-- Something that happens to the watch with one handle without a report or a request. -/
theorem Shared.silent (distinct : (world.session.watches.map Watch.handle).Nodup) {k : Handle}
    {x : Watch.Share}
    (shares : ∀ w ∈ world.session.watches,
      world.share w o = if w.handle = k then x else .nothing)
    (reports : ∀ w : Watch, (w.receive x).1 = []) (requests : ∀ w : Watch, w.asks x = [])
    (watches : world'.session.watches =
      world.session.watches.map fun w => if w.handle = k then (w.receive x).2 else w)
    (config : world'.session.config = world.session.config)
    (host : world'.host = world.host) (sent : world'.sent = world.sent)
    (same_requests : world'.requests = world.requests) : Shared world o world' := by
  refine .one distinct shares watches config (congrArg Host.nextHandle host) ?_ ?_
  · rw [sent]
    cases world.session.watch? k with
    | none => exact (List.append_nil _).symm
    | some w =>
      rw [Option.toList_some, List.flatMap_singleton, reports]
      exact (List.append_nil _).symm
  · rw [same_requests]
    cases world.session.watch? k with
    | none => exact (List.append_nil _).symm
    | some w =>
      rw [Option.toList_some, List.flatMap_singleton, requests]
      exact (List.append_nil _).symm

theorem shared_unregister (distinct : (world.session.watches.map Watch.handle).Nodup)
    (k : Handle) : Shared world (.act (.unregister k)) (world.step (.unregister k)) := by
  show Shared world _ { world with session := (world.session.unregister k).2 }
  rw [Session.unregister]
  by_cases active : world.session.contains k
  · rw [if_pos active]
    refine .silent distinct (k := k) (x := .closing) ?_ (fun _ => rfl) (fun _ => rfl) rfl rfl rfl
      rfl rfl
    intro w _
    rw [share, if_pos active]
  · rw [if_neg active]
    refine .still ?_ rfl rfl (Nat.le_refl _) rfl rfl
    intro w _
    rw [share, if_neg active, ite_self]

theorem shared_teardown (world : World) :
    Shared world (.act .teardown) (world.step .teardown) := by
  have shares : ∀ w : Watch, world.share w (.act .teardown) =
      if world.session.contains w.handle then .closing else .nothing := fun _ => rfl
  have silent : ∀ w : Watch, (w.receive (world.share w (.act .teardown))).1 = [] ∧
      w.asks (world.share w (.act .teardown)) = [] := by
    intro w
    rw [shares]
    split <;> exact ⟨rfl, rfl⟩
  refine ⟨⟨[], ?_, .inl rfl⟩, rfl, Nat.le_refl _, ?_, ?_, fun _ _ => rfl⟩
  · rw [List.append_nil]
    apply List.map_congr_left
    intro w _
    rw [shares]
    split <;> rfl
  · intro w _
    rw [(silent w).1]
    exact (List.append_nil _).symm
  · intro w _
    rw [(silent w).2]
    exact (List.append_nil _).symm

/-- A watch asks for its first read under its own number. -/
theorem handle_firstRequest (settings : WatchSettings) (host : Host) :
    (Watch.firstRequest settings host).handle = ⟨host.nextHandle⟩ := by
  rw [Watch.firstRequest]
  rcases Watch.openDirectory_cases host.allocate.1 settings host.allocate.2 with
    ⟨e, host', refused, -⟩ | ⟨root, host', opened, -⟩
  · rw [refused]
    rfl
  · rw [opened]
    rfl

/-- A watch that has been set up joins, and asks for its first read under the next number. -/
theorem shared_join
    (below : ∀ w ∈ world.session.watches, w.handle.number < world.host.nextHandle)
    (shares : ∀ w ∈ world.session.watches, world.share w o = .nothing) {path : String}
    {includeSubtree : Bool} {filter : Filter} {patterns : Patterns} {root : RawPath} {w : Watch}
    {host : Host}
    (started : Watch.Started
      (Watch.settingsFor world.session.config path includeSubtree filter patterns) world.host root
      w)
    (numbers : host.nextHandle = world.host.nextHandle + 1) (active : List Handle) :
    Shared world o (world.enroll (.ok w.handle,
      { world.session with watches := world.session.watches ++ [w], active }, host)) := by
  have unchanged : world.session.watches.map (fun v => (v.receive (world.share v o)).2) =
      world.session.watches := by
    have same : ∀ v ∈ world.session.watches, (v.receive (world.share v o)).2 = v := by
      intro v mem
      rw [shares v mem]
      rfl
    rw [List.map_congr_left same, List.map_id']
  refine ⟨⟨[w], ?_, .inr ⟨w, rfl, ⟨_, _, _, _, root, started⟩, numbers⟩⟩, rfl, ?_, ?_, ?_,
    fun _ _ => rfl⟩
  · rw [unchanged]
    rfl
  · show world.host.nextHandle ≤ host.nextHandle
    omega
  · intro v mem
    rw [shares v mem]
    exact (List.append_nil _).symm
  · intro v mem
    rw [shares v mem, requestsOf, enroll, List.filter_append]
    -- what joins has asked under the next number, which none of the others has
    refine congrArg (world.requestsOf v.handle ++ ·) (List.filter_eq_nil_iff.mpr ?_)
    intro r asked named
    obtain ⟨u, -, rfl⟩ := List.mem_map.mp asked
    exact handle_ne_next below mem ((of_decide_eq_true named).symm.trans (handle_firstRequest _ _))

/-- A registration that adds no watch or one that has been set up. -/
theorem shared_register
    (below : ∀ w ∈ world.session.watches, w.handle.number < world.host.nextHandle)
    (shares : ∀ w ∈ world.session.watches, world.share w o = .nothing) (path : String)
    (includeSubtree : Bool) (filter : Filter) (patterns : List String) :
    Shared world o (world.enroll
      (world.session.register world.host path includeSubtree filter patterns)) := by
  rw [Session.register]
  split
  · exact .still shares rfl rfl (Nat.le_refl _) rfl rfl
  · split
    · exact .still shares rfl rfl (Nat.le_refl _) rfl rfl
    · next ps _ =>
      split
      · exact .still shares rfl rfl (Nat.le_refl _) rfl rfl
      · rcases Watch.setUp_cases (Watch.settingsFor world.session.config path includeSubtree filter
          ps) world.host with ⟨e, w, host, set_up, numbers, -⟩ |
          ⟨root, w, host, set_up, numbers, started⟩
        · have more : world.host.nextHandle ≤ host.nextHandle := by omega
          rw [set_up]
          exact .still shares rfl rfl more rfl rfl
        · rw [set_up]
          exact shared_join below shares started numbers _

/-- Whatever happens, this is all that the watches of a session have of it. -/
theorem shared (distinct : (world.session.watches.map Watch.handle).Nodup)
    (below : ∀ w ∈ world.session.watches, w.handle.number < world.host.nextHandle)
    (o : Session.Occurrence) : Shared world o (world.meet o) := by
  cases o with
  | sever k =>
    exact .silent distinct (fun _ _ => rfl) (fun _ => rfl) (fun _ => rfl) rfl rfl rfl rfl rfl
  | act act =>
    cases act with
    | register path includeSubtree filter patterns =>
      exact shared_register below (fun _ _ => rfl) path includeSubtree filter patterns
    | watch path => exact shared_register below (fun _ _ => rfl) path _ _ _
    | unregister k => exact shared_unregister distinct k
    | teardown => exact world.shared_teardown
    | deliver k delivery =>
      exact .silent distinct (fun _ _ => rfl) (fun _ => rfl) (fun _ => rfl) rfl rfl rfl rfl rfl
    | work k => exact shared_work distinct k
    | callBack k => exact shared_callBack distinct k
    | dispatch fails => exact .still (fun _ _ => rfl) rfl rfl (Nat.le_refl _) rfl rfl
    | dispatchNext fails =>
      show Shared world _ (world.step (.dispatchNext fails))
      rcases world.session.dispatchNext_cases fails with ⟨-, dispatches⟩ | dispatches
      · rw [World.step, dispatches]
        exact .still (fun _ _ => rfl) rfl rfl (Nat.le_refl _) rfl rfl
      · rw [World.step, dispatches]
        exact .still (fun _ _ => rfl) rfl rfl (Nat.le_refl _) rfl rfl
    | surroundings host => exact .still (fun _ _ => rfl) rfl rfl (Nat.le_max_right _ _) rfl rfl

end World

end DirWatch
