import DirWatch.Proofs.Session.Shares
import Mathlib.Data.List.Nodup

/-!
# An error is the last word of a watch

`World.Orderly` is what holds of a session even if directories are closed under their watches:
handles are given once, and every watch stands as one that has reported what is written down for it.
Whatever happens keeps it (`World.Orderly.meet`). So a watch that has reported an error is concluded
(`World.Concluded`): it reports nothing more, asks for no read and counts none, whatever follows.
`World.error_is_final` says this of every run.
-/

namespace DirWatch

namespace World

/-- What holds of a session at any time, be its directories open or not. -/
structure Orderly (world : World) : Prop where
  distinct : (world.session.watches.map Watch.handle).Nodup
  below : ∀ w ∈ world.session.watches, w.handle.number < world.host.nextHandle
  /-- Nobody else has reported anything. -/
  unknown : ∀ h, (∀ w ∈ world.session.watches, w.handle ≠ h) → world.sentBy h = []
  stands : ∀ w ∈ world.session.watches, w.Standing (world.sentBy w.handle)
  room : ∀ w ∈ world.session.watches,
    w.settings.maxPendingChanges = world.session.config.maxPendingChanges.toNat

variable {world world' : World} {o : Session.Occurrence} {w : Watch}

theorem orderly_start (config : MonitorConfig) (host : Host) : (start config host).Orderly where
  distinct := List.nodup_nil
  below _ mem := absurd mem List.not_mem_nil
  unknown _ _ := rfl
  stands _ mem := absurd mem List.not_mem_nil
  room _ mem := absurd mem List.not_mem_nil

/-- A watch gets its share, and is still to be found. -/
theorem Orderly.goes_on (h : world.Orderly) (shared : world.Shared o world')
    (mem : w ∈ world.session.watches) :
    (w.receive (world.share w o)).2 ∈ world'.session.watches ∧
      (w.receive (world.share w o)).2.handle = w.handle := by
  obtain ⟨joined, watches, -⟩ := shared.watches
  constructor
  · rw [watches]
    exact List.mem_append_left _ (List.mem_map_of_mem mem)
  · exact (h.stands w mem).sane.handle _

/-- A watch was there before, or joins. -/
theorem Shared.origin (shared : world.Shared o world') (mem : w ∈ world'.session.watches) :
    (∃ v ∈ world.session.watches, w = (v.receive (world.share v o)).2) ∨
      world.Joins w world' := by
  obtain ⟨joined, watches, joins⟩ := shared.watches
  rw [watches] at mem
  rcases List.mem_append.mp mem with old | new
  · obtain ⟨v, mem_v, rfl⟩ := List.mem_map.mp old
    exact .inl ⟨v, mem_v, rfl⟩
  · rcases joins with rfl | ⟨v, rfl, joins⟩
    · exact absurd new List.not_mem_nil
    · rw [List.mem_singleton.mp new]
      exact .inr joins

theorem Joins.handle (joins : world.Joins w world') : w.handle = ⟨world.host.nextHandle⟩ := by
  obtain ⟨_, _, _, _, _, started⟩ := joins.started
  exact started.handle

theorem Orderly.distinct_shared (h : world.Orderly) (shared : world.Shared o world') :
    (world'.session.watches.map Watch.handle).Nodup := by
  obtain ⟨joined, watches, joins⟩ := shared.watches
  have handles : (world.session.watches.map fun w => (w.receive (world.share w o)).2).map
      Watch.handle = world.session.watches.map Watch.handle := by
    rw [List.map_map]
    exact List.map_congr_left fun w mem => (h.stands w mem).sane.handle _
  rw [watches, List.map_append, handles]
  rcases joins with rfl | ⟨w, rfl, joins⟩
  · rw [List.map_nil, List.append_nil]
    exact h.distinct
  · rw [List.nodup_append]
    refine ⟨h.distinct, List.nodup_singleton _, ?_⟩
    intro k old k' new same
    obtain ⟨v, mem, rfl⟩ := List.mem_map.mp old
    rw [List.map_singleton, List.mem_singleton, joins.handle] at new
    exact handle_ne_next h.below mem (same.trans new)

/-- Whatever happens to an orderly session, it stays orderly. -/
theorem Orderly.meet (h : world.Orderly) (o : Session.Occurrence) : (world.meet o).Orderly := by
  have shared := world.shared h.distinct h.below o
  -- nothing has been reported yet under the number that a watch joins with
  have elsewhere : ∀ w, world.Joins w (world.meet o) → (world.meet o).sentBy w.handle = [] := by
    intro w joins
    have stranger : ∀ v ∈ world.session.watches, v.handle ≠ w.handle := by
      intro v mem
      rw [joins.handle]
      exact handle_ne_next h.below mem
    rw [shared.elsewhere w.handle stranger]
    exact h.unknown w.handle stranger
  refine ⟨h.distinct_shared shared, ?_, ?_, ?_, ?_⟩
  · intro w mem
    rcases shared.origin mem with ⟨v, mem_v, rfl⟩ | joins
    · rw [(h.goes_on shared mem_v).2]
      exact Nat.lt_of_lt_of_le (h.below v mem_v) shared.numbers
    · rw [joins.handle, joins.numbers]
      exact Nat.lt_succ_self _
  · intro k stranger
    have strange_before : ∀ w ∈ world.session.watches, w.handle ≠ k := by
      intro w mem
      obtain ⟨still_there, handle⟩ := h.goes_on shared mem
      rw [← handle]
      exact stranger _ still_there
    rw [shared.elsewhere k strange_before]
    exact h.unknown k strange_before
  · intro w mem
    rcases shared.origin mem with ⟨v, mem_v, rfl⟩ | joins
    · rw [(h.goes_on shared mem_v).2, shared.sent v mem_v]
      exact (h.stands v mem_v).receive _
    · obtain ⟨_, _, _, _, _, started⟩ := joins.started
      rw [elsewhere w joins]
      exact started.standing
  · intro w mem
    rw [shared.config]
    rcases shared.origin mem with ⟨v, mem_v, rfl⟩ | joins
    · rw [(h.stands v mem_v).sane.settings]
      exact h.room v mem_v
    · obtain ⟨_, _, _, _, _, started⟩ := joins.started
      rw [started.same_settings]
      rfl

theorem Orderly.meetAll (h : world.Orderly) (os : List Session.Occurrence) :
    (world.meetAll os).Orderly := by
  induction os generalizing world with
  | nil => exact h
  | cons o rest ih => exact ih (h.meet o)

theorem config_meetAll (h : world.Orderly) (os : List Session.Occurrence) :
    (world.meetAll os).session.config = world.session.config := by
  induction os generalizing world with
  | nil => rfl
  | cons o rest ih =>
    exact (ih (h.meet o)).trans (world.shared h.distinct h.below o).config

/-! ## Refused reads -/

/-- Only the worker and the callback make a watch ask for a read. -/
theorem share_of_asks {asking : Watch} (asks : asking ∈ w.asks (world.share w o)) :
    world.share w o = .happening (.callBack world.host) ∨
      world.share w o = .happening (.work world.host) := by
  have nothing : asking ∉ w.asks .nothing := List.not_mem_nil
  have mute : ∀ (own : Prop) [Decidable own] {x : Watch.Share}, w.asks x = [] →
      asking ∉ w.asks (if own then x else .nothing) := by
    intro own _ x asks_none
    split
    · rw [asks_none]
      exact List.not_mem_nil
    · exact nothing
  cases o with
  | sever k => exact absurd asks (mute _ rfl)
  | act act =>
    cases act with
    | work k =>
      rw [share] at asks ⊢
      split at asks
      · next own => exact .inr (if_pos own)
      · exact absurd asks nothing
    | callBack k =>
      rw [share] at asks ⊢
      split at asks
      · next own => exact .inl (if_pos own)
      · exact absurd asks nothing
    | unregister k =>
      refine absurd asks (mute _ ?_)
      split <;> rfl
    | deliver k delivery => exact absurd asks (mute _ rfl)
    | teardown => exact absurd asks (mute _ rfl)
    | register path includeSubtree filter patterns => exact absurd asks nothing
    | watch path => exact absurd asks nothing
    | dispatch fails => exact absurd asks nothing
    | dispatchNext fails => exact absurd asks nothing
    | surroundings host => exact absurd asks nothing

/-! ## Watches that have reported an error -/

/-- What has become of a watch that had reported an error by then: nothing that tells. -/
structure Concluded (world : World) (w : Watch) (world' : World) (w' : Watch) : Prop where
  found : world'.session.watch? w.handle = some w'
  /-- It has reported nothing more. -/
  sent : world'.sentBy w.handle = world.sentBy w.handle
  /-- It has asked for no read. -/
  requests : world'.requestsOf w.handle = world.requestsOf w.handle
  /-- It has counted nothing, not even when it was closed. -/
  counters : w'.counters = w.counters
  no_read : w'.readOutstanding = false
  /-- No more changes wait in its journal than there is room for. -/
  room : ∀ d, w'.directory = some d →
    d.journal.pending.length ≤ max 1 world.session.config.maxPendingChanges.toNat

/-- A watch stays concluded. -/
theorem Orderly.concluded (h : world.Orderly) (mem : w ∈ world.session.watches) {e : IoError}
    (failed : Payload.failure e ∈ world.sentBy w.handle) (later : List Session.Occurrence) :
    ∃ w', world.Concluded w (world.meetAll later) w' := by
  induction later generalizing world w with
  | nil =>
    refine ⟨w, Session.watch?_of_mem h.distinct mem, rfl, rfl, rfl,
      (h.stands w mem).rests e failed, ?_⟩
    intro d opened
    rw [← h.room w mem]
    exact ((h.stands w mem).bounded d opened).pending
  | cons o rest ih =>
    have shared := world.shared h.distinct h.below o
    obtain ⟨still_there, handle⟩ := h.goes_on shared mem
    obtain ⟨nothing, none_asked, counters, -⟩ :=
      ((h.stands w mem).resting failed).receive (world.share w o)
    have sent := shared.sent w mem
    have requests := shared.requests w mem
    rw [nothing, List.append_nil] at sent
    rw [none_asked, List.append_nil] at requests
    have still_failed : Payload.failure e ∈ (world.meet o).sentBy
        (w.receive (world.share w o)).2.handle := by
      rw [handle, sent]
      exact failed
    -- what follows concerns the watch as this act has left it
    obtain ⟨w', concluded⟩ := ih (h.meet o) still_there still_failed
    obtain ⟨found, sent', requests', counters', no_read, room⟩ := concluded
    rw [handle] at found sent' requests'
    rw [shared.config] at room
    exact ⟨w', found, sent'.trans sent, requests'.trans requests, counters'.trans counters,
      no_read, room⟩

/-- An error is the last thing that a watch ever reports, so that it is the only one; where the next
read is refused, it stands right behind the changes that the callback has found. From then on
nothing happens to the watch that tells, whatever is delivered to it, be it once more an error or a
rescan, whoever runs its callback, and whether it is closed. -/
theorem error_is_final (config : MonitorConfig) (host : Host) (past : List Session.Occurrence)
    (h : Handle) :
    let world := (start config host).meetAll past
    LastWord (world.sentBy h) ∧
    ((world.sentBy h).filter fun p => p.status = .error).length ≤ 1 ∧
    (∀ w o asking e, world.session.watch? h = some w → asking ∈ w.asks (world.share w o) →
      (asking.initiateRead world.host).1 = .error e →
      ∃ found, w.finding? = some (.changes found) ∧
        (world.meet o).sentBy h = world.sentBy h ++ [.changes found, .failure e]) ∧
    (∀ e, Payload.failure e ∈ world.sentBy h →
      ∃ w, world.session.watch? h = some w ∧ world.session.config = config ∧
        ∀ later, ∃ w', world.Concluded w (world.meetAll later) w') := by
  intro world
  have orderly : world.Orderly := (orderly_start config host).meetAll past
  have last : LastWord (world.sentBy h) := by
    by_cases known : ∃ w ∈ world.session.watches, w.handle = h
    · obtain ⟨w, mem, rfl⟩ := known
      exact (orderly.stands w mem).last
    · rw [orderly.unknown h fun w mem same => known ⟨w, mem, same⟩]
      exact lastWord_nil
  refine ⟨last, last.once, ?_, ?_⟩
  · intro w o asking e found asks refused
    obtain ⟨mem, rfl⟩ := Session.mem_of_watch? found
    obtain ⟨changes, finding, reports⟩ :=
      (orderly.stands w mem).sane.refused (share_of_asks asks) asks refused
    refine ⟨changes, finding, ?_⟩
    rw [(world.shared orderly.distinct orderly.below o).sent w mem, reports]
  · intro e failed
    -- only a watch of the session can have reported the error
    have known : ∃ w ∈ world.session.watches, w.handle = h := by
      by_contra stranger
      rw [orderly.unknown h fun w mem same => stranger ⟨w, mem, same⟩] at failed
      exact absurd failed List.not_mem_nil
    obtain ⟨w, mem, rfl⟩ := known
    exact ⟨w, Session.watch?_of_mem orderly.distinct mem,
      config_meetAll (orderly_start config host) past,
      fun later => orderly.concluded mem failed later⟩

/-- Two watches of the root of an empty file system. The first one finds a file, but its directory
is closed before its callback runs, so that it is refused the next read; the backend fails the
second one. -/
def twoFailed : List Session.Occurrence :=
  [.act (.watch "/"), .act (.watch "/"),
    .act (.deliver ⟨1⟩ (.ok ⟨.create .file, [[RawPath.slash, 97]], false⟩)), .sever ⟨1⟩,
    .act (.callBack ⟨1⟩), .act (.deliver ⟨2⟩ (.error ⟨.pathNotFound, []⟩)), .act (.work ⟨2⟩)]

/-- The backend goes on, the callbacks run again, and the first watch is closed. -/
def inVain : List Session.Occurrence :=
  [.act (.deliver ⟨1⟩ (.ok ⟨.create .file, [[RawPath.slash, 98]], true⟩)),
    .act (.deliver ⟨2⟩ (.error ⟨.pathNotFound, []⟩)),
    .act (.deliver ⟨2⟩ (.ok ⟨.create .file, [[RawPath.slash, 97]], false⟩)),
    .act (.callBack ⟨1⟩), .act (.callBack ⟨2⟩), .act (.unregister ⟨1⟩)]

/-- Neither comes to anything, although the second directory is open and goes on to record. -/
theorem error_is_final_twoFailed :
    let world := (start { bufferSize := 16, maxPendingChanges := 1 } { tree := ⟨[], []⟩ }).meetAll
      twoFailed
    world.sentBy ⟨1⟩ = [.changes [⟨.added, "a"⟩], .failure Directory.closedError] ∧
      world.sentBy ⟨2⟩ = [.failure (.raised .notFound "watched path not found")] ∧
      (∃ w w', world.session.watch? ⟨1⟩ = some w ∧ world.Concluded w (world.meetAll inVain) w') ∧
      (∃ w w', world.session.watch? ⟨2⟩ = some w ∧ world.Concluded w (world.meetAll inVain) w' ∧
        w'.directory.map (fun d => d.journal.pending) = some [⟨.added, "a"⟩]) := by
  intro world
  have first : world.sentBy ⟨1⟩ =
      [.changes [⟨.added, "a"⟩], .failure Directory.closedError] := by decide +kernel
  have second : world.sentBy ⟨2⟩ = [.failure (.raised .notFound "watched path not found")] := by
    decide +kernel
  obtain ⟨-, -, -, final⟩ := error_is_final { bufferSize := 16, maxPendingChanges := 1 }
    { tree := ⟨[], []⟩ } twoFailed ⟨1⟩
  obtain ⟨-, -, -, final'⟩ := error_is_final { bufferSize := 16, maxPendingChanges := 1 }
    { tree := ⟨[], []⟩ } twoFailed ⟨2⟩
  obtain ⟨w, found, -, concluded⟩ :=
    final Directory.closedError (by rw [first]; exact List.mem_cons_of_mem _ List.mem_cons_self)
  obtain ⟨v, found', -, concluded'⟩ := final' _ (by rw [second]; exact List.mem_cons_self)
  obtain ⟨w', later⟩ := concluded inVain
  obtain ⟨v', later'⟩ := concluded' inVain
  have recorded : ((world.meetAll inVain).session.watch? ⟨2⟩).map
      (fun w => w.directory.map fun d => d.journal.pending) = some (some [⟨.added, "a"⟩]) := by
    decide +kernel
  have still_found := later'.found
  rw [(Session.mem_of_watch? found').2] at still_found
  rw [still_found] at recorded
  exact ⟨first, second, ⟨w, w', found, later⟩, v, v', found', later', Option.some.inj recorded⟩

end World

end DirWatch
