import DirWatch.Proofs.Session.Registration
import DirWatch.Proofs.Session.Silence
import Mathlib.Data.List.Nodup

/-!
# What the answers of a session tell

Those who register and unregister watches and end a session are answered (`World.answers`). These
answers tell which watches are active: `World.Known` says how, and whatever happens keeps it
(`World.Known.step`). From it follows what a session makes of its active watches
(`World.Known.registry`).
-/

namespace DirWatch

namespace Watch

variable {w : Watch}

theorem handle_openDirectory (w : Watch) (host : Host) :
    (w.openDirectory host).2.1.handle = w.handle := by
  rw [openDirectory]
  split <;> rfl

theorem handle_start (w : Watch) (host : Host) : (w.start host).2.1.handle = w.handle := by
  have opened := w.handle_openDirectory host
  rw [start]
  split
  · next refused =>
    rw [refused] at opened
    exact opened
  · next w₁ host₁ opens =>
    rw [opens] at opened
    have asked := (alike_initiateRead w₁ host₁).handle
    split
    · next refused =>
      rw [refused] at asked
      exact asked.trans opened
    · next accepted =>
      rw [accepted] at asked
      dsimp only
      split
      · exact asked.trans opened
      · exact asked.trans opened

theorem handle_close (w : Watch) : w.close.handle = w.handle := by
  cases closed : w.closed with
  | true => rw [close, if_pos closed]
  | false => exact (close_spec closed).1

end Watch

namespace Session

/-- Every watch is made under the next number, whether it starts or not. -/
theorem handle_of_made? {s : Session} {host : Host} {path : String} {includeSubtree : Bool}
    {filter : Filter} {patterns : List String} {w : Watch}
    (made : s.made? host path includeSubtree filter patterns = some w) :
    w.handle = ⟨host.nextHandle⟩ := by
  rw [made?] at made
  split at made
  · contradiction
  · next settings _ =>
    have started := Watch.handle_start (.unstarted ⟨host.nextHandle⟩ settings)
      { host with nextHandle := host.nextHandle + 1 }
    rw [Watch.setUp, Host.allocate] at made
    dsimp only at made
    generalize Watch.start _ _ = outcome at made started
    obtain ⟨answer, w', host'⟩ := outcome
    cases answer with
    | error e =>
      obtain rfl := Option.some.inj made
      exact w'.handle_close.trans started
    | ok =>
      obtain rfl := Option.some.inj made
      exact started

/-- A registration fails, and what it has made is closed, or it adds what it has made. -/
theorem register_outcome (s : Session) (host : Host) (path : String) (includeSubtree : Bool)
    (filter : Filter) (patterns : List String) :
    let outcome := s.register host path includeSubtree filter patterns
    let made := s.made? host path includeSubtree filter patterns
    outcome.2.2.nextHandle = host.nextHandle + made.toList.length ∧
      ((∃ e, outcome.1 = .error e ∧ outcome.2.1 = s ∧ ∀ w ∈ made, w.closed = true) ∨
        ∃ w, made = some w ∧ w.closed = false ∧ s.tornDown = false ∧ outcome.1 = .ok w.handle ∧
          outcome.2.1 =
            { s with watches := s.watches ++ [w], active := s.active ++ [w.handle] }) := by
  rw [register_eq, made?]
  cases admitted : s.admission path includeSubtree filter patterns with
  | error e => exact ⟨rfl, .inl ⟨e, rfl, rfl, fun w mem => by simp at mem⟩⟩
  | ok settings =>
    have open_still : s.tornDown = false := by
      cases torn : s.tornDown with
      | false => rfl
      | true =>
        rw [admission, if_pos torn] at admitted
        contradiction
    dsimp only
    rcases Watch.setUp_cases settings host with
      ⟨e, w, host', set_up, numbers, shut, -⟩ | ⟨root, w, host', set_up, numbers, started⟩
    · rw [set_up]
      refine ⟨numbers, .inl ⟨_, rfl, rfl, ?_⟩⟩
      intro v mem
      rw [← Option.mem_some_iff.mp mem]
      exact shut.closed
    · rw [set_up]
      exact ⟨numbers, .inr ⟨w, rfl, started.reading.1, open_still, rfl, rfl⟩⟩

/-- A session before and after a watch is unregistered: this watch is closed and not active any
more, and nothing else has changed. -/
structure Without (s s' : Session) (h : Handle) : Prop where
  active : ∀ k, k ∈ s'.active ↔ k ∈ s.active ∧ k ≠ h
  closes : ∃ w, s.watch? h = some w ∧ s'.watch? h = some w.close ∧ w.close.closed = true
  others : ∀ k ≠ h, s'.watch? k = s.watch? k
  rest : s' = { s with watches := s'.watches, active := s'.active }

/-! ## Answers -/

/-- What those are answered who ask something of a session. -/
inductive Answer where
  | registered (answer : Except RegisterError Handle)
  | unregistered (h : Handle) (answer : Except WatchError Unit)
  | tornDown (count : Nat)

end Session

namespace World

open Session

variable {world world' : World} {act : Session.Act}

/-- What an act is answered with, if it asks something. -/
def answers (world : World) : Session.Act → List Session.Answer
  | .register path includeSubtree filter patterns =>
    [.registered (world.session.register world.host path includeSubtree filter patterns).1]
  | .watch path => [.registered (world.session.watch world.host path).1]
  | .unregister h => [.unregistered h (world.session.unregister h).1]
  | .teardown => [.tornDown world.session.teardown.1]
  | _ => []

/-- The watch that an act makes, whether it starts or is closed again. -/
def makes (world : World) : Session.Act → List Watch
  | .register path includeSubtree filter patterns =>
    (world.session.made? world.host path includeSubtree filter patterns).toList
  | .watch path =>
    (world.session.made? world.host path world.session.config.includeSubtree
      world.session.config.filter []).toList
  | _ => []

theorem handle_of_mem_makes {w : Watch} (mem : w ∈ world.makes act) :
    w.handle = ⟨world.host.nextHandle⟩ := by
  cases act with
  | register path includeSubtree filter patterns => exact handle_of_made? (Option.mem_toList.mp mem)
  | watch path => exact handle_of_made? (Option.mem_toList.mp mem)
  | _ => exact absurd mem List.not_mem_nil

/-- What an act changes of the active watches is what it is answered with, and the numbers that it
uses up are those of what it makes. -/
structure Told (world : World) (act : Session.Act) (world' : World) : Prop where
  active : ∀ h, h ∈ world'.session.active ↔
    (h ∈ world.session.active ∨ .registered (.ok h) ∈ world.answers act) ∧
      .unregistered h (.ok ()) ∉ world.answers act ∧ ∀ n, .tornDown n ∉ world.answers act
  once : world.session.active.Nodup → world'.session.active.Nodup
  torn : world'.session.tornDown = true ↔
    world.session.tornDown = true ∨ ∃ n, .tornDown n ∈ world.answers act
  numbers : (∀ host, act ≠ .surroundings host) →
    world'.host.nextHandle = world.host.nextHandle + (world.makes act).length
  registered : ∀ h, .registered (.ok h) ∈ world.answers act →
    world.session.tornDown = false ∧ (world.makes act).map Watch.handle = [h]
  unregistered : ∀ h, .unregistered h (.ok ()) ∈ world.answers act → h ∈ world.session.active

/-- An act that has no answer and makes nothing. -/
theorem Told.still (answers : world.answers act = []) (makes : world.makes act = [])
    (active : world'.session.active = world.session.active)
    (torn : world'.session.tornDown = world.session.tornDown)
    (numbers : (∀ host, act ≠ .surroundings host) →
      world'.host.nextHandle = world.host.nextHandle) : world.Told act world' := by
  refine ⟨?_, ?_, ?_, ?_, ?_, ?_⟩
  · intro h
    rw [answers, active]
    simp
  · rw [active]
    exact id
  · rw [answers, torn]
    simp
  · rw [makes]
    exact numbers
  · intro h answer
    rw [answers] at answer
    exact absurd answer List.not_mem_nil
  · intro h answer
    rw [answers] at answer
    exact absurd answer List.not_mem_nil

theorem session_enroll (world : World) (outcome : Except RegisterError Handle × Session × Host) :
    (world.enroll outcome).session = outcome.2.1 ∧ (world.enroll outcome).host = outcome.2.2 := by
  rw [enroll.eq_def]
  split <;> exact ⟨rfl, rfl⟩

/-- A registration is told by its answer. -/
theorem Accounted.told_register (accounted : world.Accounted true) {path : String}
    {includeSubtree : Bool} {filter : Filter} {patterns : List String}
    (answers : world.answers act =
      [.registered (world.session.register world.host path includeSubtree filter patterns).1])
    (makes : world.makes act =
      (world.session.made? world.host path includeSubtree filter patterns).toList) :
    world.Told act (world.enroll
      (world.session.register world.host path includeSubtree filter patterns)) := by
  obtain ⟨numbers, outcome⟩ :=
    world.session.register_outcome world.host path includeSubtree filter patterns
  obtain ⟨session, host⟩ := world.session_enroll
    (world.session.register world.host path includeSubtree filter patterns)
  refine ⟨?_, ?_, ?_, ?_, ?_, ?_⟩
  · intro h
    rw [answers, session]
    rcases outcome with ⟨e, answer, same, -⟩ | ⟨w, -, -, -, answer, joined⟩
    · rw [answer, same]
      simp
    · rw [answer, joined]
      simp [eq_comm]
  · intro once
    rw [session]
    rcases outcome with ⟨e, -, same, -⟩ | ⟨w, made, -, -, -, joined⟩
    · rw [same]
      exact once
    · -- the number is new, so that no active watch has it
      have mem : w ∈ world.makes act := by
        rw [makes, made]
        exact List.mem_cons_self
      have next := handle_of_mem_makes mem
      have new := accounted.next_not_active
      rw [joined]
      apply once.append (List.nodup_singleton _)
      rw [next]
      simpa using new
  · rw [answers, session]
    rcases outcome with ⟨e, -, same, -⟩ | ⟨w, -, -, -, -, joined⟩
    · rw [same]
      simp
    · rw [joined]
      simp
  · intro _
    rw [host, makes]
    exact numbers
  · intro h answered
    rw [answers, List.mem_singleton] at answered
    have answer := Session.Answer.registered.inj answered
    rw [makes]
    rcases outcome with ⟨e, failed, -⟩ | ⟨w, made, -, open_still, joined, -⟩
    · rw [failed] at answer
      contradiction
    · rw [joined] at answer
      rw [made, Except.ok.inj answer]
      exact ⟨open_still, rfl⟩
  · intro h answered
    rw [answers, List.mem_singleton] at answered
    contradiction

theorem told_unregister (world : World) (k : Handle) :
    world.Told (.unregister k) (world.step (.unregister k)) := by
  show world.Told (.unregister k) { world with session := (world.session.unregister k).2 }
  have answers : world.answers (.unregister k) =
      [.unregistered k (world.session.unregister k).1] := rfl
  by_cases contained : world.session.contains k
  · have active : k ∈ world.session.active := by simpa [Session.contains] using contained
    have done : world.session.unregister k = (.ok (), { world.session.update k Watch.close with
        active := world.session.active.filter fun a => a != k }) := by
      rw [Session.unregister, if_pos contained]
    rw [done] at answers ⊢
    refine ⟨?_, fun once => once.filter _, ?_, fun _ => rfl, ?_, ?_⟩
    · intro h
      rw [answers]
      simp
    · rw [answers]
      simp [Session.update]
    · intro h answered
      rw [answers, List.mem_singleton] at answered
      contradiction
    · intro h answered
      rw [answers, List.mem_singleton] at answered
      obtain ⟨rfl, -⟩ := Session.Answer.unregistered.inj answered
      exact active
  · have done : world.session.unregister k = (.error (.unknownHandle k), world.session) := by
      rw [Session.unregister, if_neg contained]
    rw [done] at answers ⊢
    refine ⟨?_, id, ?_, fun _ => rfl, ?_, ?_⟩
    · intro h
      rw [answers]
      simp
    · rw [answers]
      simp
    · intro h answered
      rw [answers, List.mem_singleton] at answered
      contradiction
    · intro h answered
      rw [answers, List.mem_singleton] at answered
      obtain ⟨-, failed⟩ := Session.Answer.unregistered.inj answered
      contradiction

theorem told_teardown (world : World) : world.Told .teardown (world.step .teardown) := by
  have answers : world.answers .teardown = [.tornDown world.session.teardown.1] := rfl
  have active : (world.step .teardown).session.active = [] := rfl
  refine ⟨?_, fun _ => List.nodup_nil, ?_, fun _ => rfl, ?_, ?_⟩
  · intro h
    rw [answers, active]
    simp
  · rw [answers]
    exact ⟨fun _ => .inr ⟨_, List.mem_cons_self⟩, fun _ => rfl⟩
  · intro h answered
    rw [answers, List.mem_singleton] at answered
    contradiction
  · intro h answered
    rw [answers, List.mem_singleton] at answered
    contradiction

/-- Whatever happens, the answers tell what becomes of the active watches. -/
theorem Accounted.told (accounted : world.Accounted true) (act : Session.Act) :
    world.Told act (world.step act) := by
  cases act with
  | register path includeSubtree filter patterns => exact accounted.told_register rfl rfl
  | watch path => exact accounted.told_register rfl rfl
  | unregister k => exact world.told_unregister k
  | teardown => exact world.told_teardown
  | deliver k delivery => exact .still rfl rfl rfl rfl fun _ => rfl
  | work k =>
    obtain ⟨-, active, torn⟩ := world.session.work_kept world.host k
    exact .still rfl rfl active torn fun _ => congrArg Host.nextHandle (accounted.same_host k).1
  | callBack k =>
    obtain ⟨-, active, torn⟩ := world.session.callBack_kept world.host k
    exact .still rfl rfl active torn fun _ => congrArg Host.nextHandle (accounted.same_host k).2
  | dispatch fails => exact .still rfl rfl rfl rfl fun _ => rfl
  | dispatchNext fails =>
    rcases world.session.dispatchNext_cases fails with ⟨-, dispatches⟩ | dispatches
    · rw [World.step, dispatches]
      exact .still rfl rfl rfl rfl fun _ => rfl
    · rw [World.step, dispatches]
      exact .still rfl rfl rfl rfl fun _ => rfl
  | surroundings host => exact .still rfl rfl rfl rfl fun plain => absurd rfl (plain host)

/-! ## What the answers of a session tell -/

/-- A session that has answered all this. -/
structure Known (answered : List Session.Answer) (world : World) : Prop where
  accounted : world.Accounted true
  active : ∀ h, h ∈ world.session.active ↔ .registered (.ok h) ∈ answered ∧
    .unregistered h (.ok ()) ∉ answered ∧ ∀ n, .tornDown n ∉ answered
  once : world.session.active.Nodup
  torn : world.session.tornDown = true ↔ ∃ n, .tornDown n ∈ answered
  /-- Watches that are unregistered had a number. -/
  spent : ∀ h, .unregistered h (.ok ()) ∈ answered → h.number < world.host.nextHandle

variable {answered : List Session.Answer}

theorem known_start (config : MonitorConfig) (host : Host) : (start config host).Known [] where
  accounted := accounted_start config host
  active h := by simp [start, Session.new]
  once := List.nodup_nil
  torn := by simp [start, Session.new]
  spent h answer := absurd answer List.not_mem_nil

/-- The host may change in any way, if it gives no number again. -/
theorem Known.rehost (known : world.Known answered) {host : Host}
    (numbers : world.host.nextHandle ≤ host.nextHandle) :
    ({ world with host } : World).Known answered where
  accounted := known.accounted.rehost numbers
  active := known.active
  once := known.once
  torn := known.torn
  spent h answer := Nat.lt_of_lt_of_le (known.spent h answer) numbers

theorem Known.step (known : world.Known answered) (act : Session.Act) :
    (world.step act).Known (answered ++ world.answers act) := by
  have told := known.accounted.told act
  have numbers := (known.accounted.advances act).numbers
  refine ⟨known.accounted.step act fun strict => by simp at strict, ?_, told.once known.once, ?_,
    ?_⟩
  · intro h
    rw [told.active, known.active]
    simp only [List.mem_append, not_or, forall_and]
    constructor
    · rintro ⟨⟨before, kept, open_still⟩ | now, not_ended, not_torn⟩
      · exact ⟨.inl before, ⟨kept, not_ended⟩, open_still, not_torn⟩
      · -- a handle that is returned is new, and a session that returns one is open
        obtain ⟨open_still, made⟩ := told.registered h now
        obtain ⟨w, mem, rfl⟩ := List.mem_map.mp (made ▸ List.mem_cons_self : h ∈ _)
        have kept : .unregistered w.handle (.ok ()) ∉ answered := by
          intro ended
          have below := known.spent _ ended
          rw [handle_of_mem_makes mem] at below
          exact Nat.lt_irrefl _ below
        have not_torn_before : ∀ n, .tornDown n ∉ answered := by
          intro n torn
          rw [known.torn.mpr ⟨n, torn⟩] at open_still
          contradiction
        exact ⟨.inr now, ⟨kept, not_ended⟩, not_torn_before, not_torn⟩
    · rintro ⟨before | now, ⟨kept, not_ended⟩, open_still, not_torn⟩
      · exact ⟨.inl ⟨before, kept, open_still⟩, not_ended, not_torn⟩
      · exact ⟨.inr now, not_ended, not_torn⟩
  · rw [told.torn, known.torn]
    simp only [List.mem_append, exists_or]
  · intro h ended
    refine Nat.lt_of_lt_of_le ?_ numbers
    rcases List.mem_append.mp ended with before | now
    · exact known.spent h before
    · obtain ⟨w, mem, rfl⟩ := known.accounted.known h (told.unregistered h now)
      exact known.accounted.below w mem

/-! ## What a session does with its active watches -/

theorem Accounted.open_of_active (accounted : world.Accounted true) {w : Watch}
    (mem : w ∈ world.session.watches) (active : w.handle ∈ world.session.active) :
    w.closed = false := by
  obtain ⟨root, stage, j, l, holds⟩ := (accounted.lived w mem active).holds
  exact holds.stands.not_closed

/-- Counting the watches that a teardown closes counts those that are active. -/
theorem Known.count_teardown (known : world.Known answered) :
    world.session.teardown.1 = world.session.active.length := by
  have counted : world.session.teardown.1 =
      ((world.session.watches.map Watch.handle).filter fun h =>
        world.session.contains h).length := by
    show world.session.watches.countP _ = _
    rw [List.countP_eq_length_filter, List.filter_map, List.length_map]
    congr 1
    apply List.filter_congr
    intro w mem
    by_cases active : w.handle ∈ world.session.active
    · have open_still := known.accounted.open_of_active mem active
      simp [Session.contains, Watch.closeOnce, active, open_still]
    · simp [Session.contains, active]
  rw [counted]
  -- both lists hold every active handle once
  apply List.Perm.length_eq
  rw [List.perm_ext_iff_of_nodup (known.accounted.distinct.filter _) known.once]
  intro h
  rw [List.mem_filter]
  constructor
  · rintro ⟨-, contained⟩
    simpa [Session.contains] using contained
  · intro active
    obtain ⟨w, mem, rfl⟩ := known.accounted.known h active
    exact ⟨List.mem_map_of_mem mem, by simpa [Session.contains] using active⟩

/-- The active watches of a session that has answered all this, and what the session does with
them. -/
structure Registry (answered : List Session.Answer) (world : World) : Prop where
  /-- Active is what a registration has returned, unless it has been unregistered or the session has
  been torn down since. -/
  active : ∀ h, h ∈ world.session.active ↔ .registered (.ok h) ∈ answered ∧
    .unregistered h (.ok ()) ∉ answered ∧ ∀ n, .tornDown n ∉ answered
  once : world.session.active.Nodup
  found : ∀ h ∈ world.session.active, ∃ w ∈ world.session.watches, w.handle = h
  distinct : ∀ w ∈ world.session.watches, world.session.watch? w.handle = some w
  open_iff : ∀ w ∈ world.session.watches, w.closed = false ↔ w.handle ∈ world.session.active
  /-- A registration that fails closes what it has made; one that succeeds adds an open watch under
  a handle that no watch of the session ever had. -/
  register : ∀ path includeSubtree filter patterns,
    let outcome := world.session.register world.host path includeSubtree filter patterns
    let made := world.session.made? world.host path includeSubtree filter patterns
    (∀ e, outcome.1 = .error e → outcome.2.1 = world.session ∧ ∀ w ∈ made, w.closed = true) ∧
      ∀ h, outcome.1 = .ok h → h ∉ world.session.active ∧ world.session.watch? h = none ∧
        ∃ w, made = some w ∧ w.handle = h ∧ w.closed = false ∧ outcome.2.1 = { world.session with
          watches := world.session.watches ++ [w]
          active := world.session.active ++ [h] }
  unregister : ∀ h, if h ∈ world.session.active then
      (world.session.unregister h).1 = .ok () ∧
        world.session.Without (world.session.unregister h).2 h
    else world.session.unregister h = (.error (.unknownHandle h), world.session)
  teardown : world.session.teardown.1 = world.session.active.length ∧
    world.session.teardown.2.active = []
  again : (∃ n, .tornDown n ∈ answered) → world.session.teardown.1 = 0

/-- Of the watches of a session just the active ones are open. -/
theorem Accounted.open_iff (accounted : world.Accounted true) {w : Watch}
    (mem : w ∈ world.session.watches) : w.closed = false ↔ w.handle ∈ world.session.active := by
  constructor
  · intro open_still
    by_contra not_active
    rw [(accounted.ended w mem not_active).1.closed] at open_still
    contradiction
  · exact accounted.open_of_active mem

/-- An active watch is unregistered, and no other one is touched. -/
theorem Accounted.unregister_active (accounted : world.Accounted true) {h : Handle}
    (active : h ∈ world.session.active) :
    (world.session.unregister h).1 = .ok () ∧
      world.session.Without (world.session.unregister h).2 h := by
  have contained : world.session.contains h := by simpa [Session.contains] using active
  have done : world.session.unregister h = (.ok (), { world.session.update h Watch.close with
      active := world.session.active.filter fun a => a != h }) := by
    rw [Session.unregister, if_pos contained]
  obtain ⟨w, mem, rfl⟩ := accounted.known h active
  have found := Session.watch?_of_mem accounted.distinct mem
  have looked := world.session.watch?_update w.handle (f := Watch.close)
  have keeps : ∀ v : Watch, v.handle = w.handle → v.close.handle = w.handle :=
    fun v named => v.handle_close.trans named
  rw [done]
  refine ⟨rfl, ?_, ?_, ?_, rfl⟩
  · intro k
    simp
  · refine ⟨w, found, ?_, (accounted.close mem active).2.1.closed⟩
    show (world.session.update w.handle Watch.close).watch? w.handle = some w.close
    rw [looked w.handle keeps, if_pos rfl, found, Option.map_some]
  · intro k other
    show (world.session.update w.handle Watch.close).watch? k = _
    rw [looked k keeps, if_neg other]

theorem Known.registry (known : world.Known answered) : world.Registry answered := by
  have accounted := known.accounted
  refine {
    active := known.active
    once := known.once
    found := accounted.known
    distinct := fun w mem => Session.watch?_of_mem accounted.distinct mem
    open_iff := fun w mem => accounted.open_iff mem
    register := ?_
    unregister := ?_
    teardown := ⟨known.count_teardown, rfl⟩
    again := ?_ }
  · intro path includeSubtree filter patterns
    obtain ⟨-, ⟨e, failed, same, closed⟩ | ⟨w, made, open_still, -, joined, added⟩⟩ :=
      world.session.register_outcome world.host path includeSubtree filter patterns
    · refine ⟨fun _ _ => ⟨same, closed⟩, ?_⟩
      intro h answer
      rw [failed] at answer
      contradiction
    · refine ⟨?_, ?_⟩
      · intro e answer
        rw [joined] at answer
        contradiction
      · intro h answer
        obtain rfl : w.handle = h := Except.ok.inj (joined.symm.trans answer)
        have next := Session.handle_of_made? made
        refine ⟨?_, ?_, w, made, rfl, open_still, added⟩
        · rw [next]
          exact accounted.next_not_active
        · rw [next]
          exact accounted.next_unknown
  · intro h
    split
    · next active => exact accounted.unregister_active active
    · next not_active =>
      have unknown : ¬world.session.contains h := by simpa [Session.contains] using not_active
      rw [Session.unregister, if_neg unknown]
  · intro torn
    rw [known.count_teardown, accounted.torn (known.torn.mpr torn), List.length_nil]

end World

end DirWatch
