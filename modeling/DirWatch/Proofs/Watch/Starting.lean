import DirWatch.Proofs.Watch.Counting

/-!
# Watches that are set up

Setting a watch up either leaves it with its first read, and what the backend delivers at once is
entered before (`Watch.Started`), or leaves a watch that is shut and whose counts are settled,
however far it had come; `Watch.setUp_cases` is the main result. Of the host only refusals are used
up (`Host.Spent`), and one number.
-/

namespace DirWatch

/-- Some refusals of a host have been used up; what watches see of it is as it was. -/
structure Host.Spent (host host' : Host) : Prop where
  tree : host'.tree = host.tree
  waiting : host'.waiting = host.waiting
  nextHandle : host'.nextHandle = host.nextHandle

namespace Host

theorem Spent.refl (host : Host) : host.Spent host := ⟨rfl, rfl, rfl⟩

theorem Spent.trans {host host' host'' : Host} (h : host.Spent host') (h' : host'.Spent host'') :
    host.Spent host'' :=
  ⟨h'.tree.trans h.tree, h'.waiting.trans h.waiting, h'.nextHandle.trans h.nextHandle⟩

theorem spent_createBackend (host : Host) : host.Spent host.createBackend.2 := by
  unfold createBackend
  split <;> exact ⟨rfl, rfl, rfl⟩

theorem spent_startWorker (host : Host) : host.Spent host.startWorker.2 := by
  unfold startWorker
  split <;> exact ⟨rfl, rfl, rfl⟩

end Host

namespace Directory

/-- Opening gives a directory that is not observed yet, or an error. -/
theorem open_cases (host : Host) (path : String) (capacity : Nat) :
    (∃ e host', Directory.open host path capacity = (.error e, host') ∧ host.Spent host') ∨
    (∃ root host', Directory.open host path capacity = (.ok (fresh root capacity), host') ∧
      host.Spent host') := by
  simp only [Directory.open]
  split
  · exact .inl ⟨_, _, rfl, .refl host⟩
  · split
    · exact .inl ⟨_, _, rfl, .refl host⟩
    · split
      · exact .inl ⟨_, _, rfl, .refl host⟩
      · split
        · exact .inl ⟨_, _, rfl, .refl host⟩
        · have spent := host.spent_createBackend
          split
          · next created =>
            rw [created] at spent
            exact .inl ⟨_, _, rfl, spent⟩
          · next created =>
            rw [created] at spent
            exact .inr ⟨_, _, rfl, spent⟩

/-- The journal of a directory that has just been opened, when the backend has delivered what it
delivers at once. -/
def atOnce (root : RawPath) (capacity : Nat) (filter : Filter) (host : Host) : Journal :=
  ({ fresh root capacity with filter }.enterAll host.tree.pathExists (host.atOnce root)).journal

theorem atOnce_sound (root : RawPath) (capacity : Nat) (filter : Filter) (host : Host) :
    (atOnce root capacity filter host).Sound :=
  enterAll_sound (Journal.sound_empty capacity)

theorem atOnce_spent {host host' : Host} (spent : host.Spent host') (root : RawPath)
    (capacity : Nat) (filter : Filter) :
    atOnce root capacity filter host' = atOnce root capacity filter host := by
  rw [atOnce, atOnce, spent.tree, Host.atOnce, Host.atOnce, spent.waiting]

/-- The backend observes a directory that has just been opened, or refuses to. -/
theorem observe_fresh (root : RawPath) (capacity : Nat) (filter : Filter) (host : Host)
    (subtree : Bool) :
    (∃ e host', ({ fresh root capacity with filter } : Directory).observe host subtree =
      (.error e, host') ∧ host.Spent host') ∨
    ({ fresh root capacity with filter } : Directory).observe host subtree =
      (.ok ⟨root, filter, atOnce root capacity filter host, .idle, .observing subtree⟩, host) := by
  cases refusal : host.watchFailure with
  | some e =>
    refine .inl ⟨e.toIo, { host with watchFailure := none }, ?_, ⟨rfl, rfl, rfl⟩⟩
    exact observe_refused rfl refusal subtree
  | none =>
    have entered := enterAll_eq host.tree.pathExists { fresh root capacity with filter }
      (host.atOnce root)
    rw [observe_allowed rfl refusal]
    refine .inr ?_
    rw [show ({ fresh root capacity with filter } : Directory).root = root from rfl, entered]
    rfl

/-- The first read of a directory has the backend observe it, and is refused if the backend
refuses. -/
theorem read_fresh (root : RawPath) (capacity : Nat) (host : Host) (buffer : Buffer)
    (subtree : Bool) (filter : Filter) (signal : SignalName) :
    (∃ d e host', (fresh root capacity).read host buffer subtree filter signal =
      (⟨d, .error e, none⟩, host') ∧ host.Spent host') ∨
    ∃ d, d = (⟨root, filter, atOnce root capacity filter host, .armed buffer signal,
        .observing subtree⟩ : Directory) ∧
      (fresh root capacity).read host buffer subtree filter signal =
        (⟨d.settle.directory, .ok (), d.settle.raised⟩, host) := by
  have not_closed : (fresh root capacity).observation ≠ .closed := by simp [fresh]
  rw [read_idle not_closed rfl]
  rcases observe_fresh root capacity filter host subtree with ⟨e, host', refused, spent⟩ | observed
  · rw [refused]
    exact .inl ⟨_, e, host', rfl, spent⟩
  · rw [observed]
    exact .inr ⟨_, rfl, rfl⟩

end Directory

namespace Watch

variable {settings : WatchSettings} {host : Host} {root : RawPath} {w : Watch}

/-- A watch that has opened its directory. -/
def opening (handle : Handle) (settings : WatchSettings) (root : RawPath) : Watch :=
  { unstarted handle settings with
    directory := some (.fresh root settings.maxPendingChanges), signal := some .down }

theorem counted_opening (handle : Handle) (settings : WatchSettings) (root : RawPath) :
    (opening handle settings root).Counted :=
  (counted_unstarted handle settings).congr rfl rfl

theorem openDirectory_cases (handle : Handle) (settings : WatchSettings) (host : Host) :
    (∃ e host', (unstarted handle settings).openDirectory host =
      (.error e, unstarted handle settings, host') ∧ host.Spent host') ∨
    ∃ root host', (unstarted handle settings).openDirectory host =
      (.ok (), opening handle settings root, host') ∧ host.Spent host' := by
  have path : (unstarted handle settings).settings = settings := rfl
  rw [openDirectory, path]
  rcases Directory.open_cases host settings.path settings.maxPendingChanges with
    ⟨e, host', opened, spent⟩ | ⟨root, host', opened, spent⟩
  · rw [opened]
    exact .inl ⟨e, host', rfl, spent⟩
  · rw [opened]
    exact .inr ⟨root, host', rfl, spent⟩

/-- The first read of a watch is refused and counted as a read that failed, or the watch stands with
it. -/
theorem firstRead_cases (handle : Handle) (settings : WatchSettings) (root : RawPath)
    (host : Host) :
    (∃ e w host', (opening handle settings root).initiateRead host = (.error e, w, host') ∧
      host.Spent host' ∧ w.closed = false ∧ w.Counted) ∨
    ∃ w, (opening handle settings root).initiateRead host = (.ok (), w, host) ∧
      (opening handle settings root).Asked root
        (Directory.atOnce root settings.maxPendingChanges settings.filter host) .down w := by
  have counted := counted_opening handle settings root
  have size : (opening handle settings root).nextBuffer.size = settings.bufferSize :=
    Array.size_replicate
  rcases Directory.read_fresh root settings.maxPendingChanges host
    (opening handle settings root).nextBuffer settings.includeSubtree settings.filter
    (opening handle settings root).signalName with
    ⟨d, e, host', refused, spent⟩ | ⟨d, rfl, accepted⟩
  · let left : Watch := { opening handle settings root with
      directory := some d
      counters := Counters.zero.issue.finish false }
    have requested : (opening handle settings root).initiateRead host = (.error e, left, host') :=
      initiateRead_refused rfl rfl refused
    exact .inl ⟨e, left, host', requested, spent, rfl, counted.refused rfl rfl rfl⟩
  · exact .inr (initiateRead_asked rfl rfl accepted rfl size
      (Directory.atOnce_sound root settings.maxPendingChanges settings.filter host))

/-- A watch as it asks for its first read. -/
def firstRequest (settings : WatchSettings) (host : Host) : Watch :=
  ((unstarted host.allocate.1 settings).openDirectory host.allocate.2).2.1

/-- A watch that has been set up, with its first read. -/
structure Started (settings : WatchSettings) (host : Host) (root : RawPath) (w : Watch) : Prop where
  handle : w.handle = ⟨host.nextHandle⟩
  same_settings : w.settings = settings
  linked : w.linked = true
  registered : w.registered = true
  counters : w.counters = Counters.zero.issue
  stands : ∃ j buffer l, j = Directory.atOnce root settings.maxPendingChanges settings.filter host ∧
    buffer.size = settings.bufferSize ∧ w.At root (j.offer buffer).1 (j.offer buffer).2 l ∧
    l.isUp = (j.offer buffer).1.isReady
  request : firstRequest settings host = opening ⟨host.nextHandle⟩ settings root

/-- Starting a watch leaves it with its first read, or leaves it as it was, or with nothing but a
read that is counted. -/
theorem start_cases (handle : Handle) (settings : WatchSettings) (host : Host) :
    (∃ e w host', (unstarted handle settings).start host = (.error e, w, host') ∧
      host.Spent host' ∧ w.closed = false ∧ w.Counted) ∨
    ∃ root w w' host', (unstarted handle settings).start host = (.ok (), w', host') ∧
      host.Spent host' ∧
      ((unstarted handle settings).openDirectory host).2.1 = opening handle settings root ∧
      (opening handle settings root).Asked root
        (Directory.atOnce root settings.maxPendingChanges settings.filter host) .down w ∧
      w' = { w with linked := true, registered := true } := by
  rcases openDirectory_cases handle settings host with
    ⟨e, host₁, opened, spent⟩ | ⟨root, host₁, opened, spent⟩
  · rw [start, opened]
    exact .inl ⟨e, _, host₁, rfl, spent, rfl, counted_unstarted handle settings⟩
  · -- what the backend delivers at once does not depend on the refusals that were used up
    have first := firstRead_cases handle settings root host₁
    rw [Directory.atOnce_spent spent] at first
    rw [start, opened]
    rcases first with ⟨e, w, host₂, refused, spent', not_closed, counted⟩ | ⟨w, accepted, asked⟩
    · simp only [refused]
      exact .inl ⟨_, w, host₂, rfl, spent.trans spent', not_closed, counted⟩
    · simp only [accepted]
      have ready := host₁.spent_startWorker
      cases started : host₁.startWorker with
      | mk result host₂ =>
        rw [started] at ready
        cases result with
        | error e =>
          -- the first read is under way already, and is left to be closed
          have counted : ({ w with linked := true } : Watch).Counted :=
            (counted_opening handle settings root).issue rfl asked.counters asked.reading
          exact .inl ⟨_, { w with linked := true }, host₂, rfl, spent.trans ready,
            asked.stands.not_closed, counted⟩
        | ok =>
          exact .inr ⟨root, w, { w with linked := true, registered := true }, host₂, rfl,
            spent.trans ready, rfl, asked, rfl⟩

/-- Setting a watch up leaves it with its first read, or leaves nothing of it. -/
theorem setUp_cases (settings : WatchSettings) (host : Host) :
    (∃ e w host', setUp settings host = (.error (e, w), host') ∧
      host'.nextHandle = host.nextHandle + 1 ∧ w.Shut ∧ w.Counted) ∨
    ∃ root w host', setUp settings host = (.ok w, host') ∧
      host'.nextHandle = host.nextHandle + 1 ∧ Started settings host root w := by
  rcases start_cases ⟨host.nextHandle⟩ settings
      { host with nextHandle := host.nextHandle + 1 } with
    ⟨e, w, host₂, started, spent, not_closed, counted⟩ |
    ⟨root, w, w', host₂, started, spent, opened, asked, rfl⟩
  · have set_up : setUp settings host = (.error (e, w.close), host₂) := by
      simp only [setUp, Host.allocate, started]
    exact .inl ⟨e, w.close, host₂, set_up, spent.nextHandle, (close_spec not_closed).2,
      counted.close not_closed⟩
  · have set_up : setUp settings host =
        (.ok { w with linked := true, registered := true }, host₂) := by
      simp only [setUp, Host.allocate, started]
    refine .inr ⟨root, _, host₂, set_up, spent.nextHandle, ?_⟩
    have stands := asked.stands
    have up (b : Bool) : (if b then Latch.down.raise else .down).isUp = b := by cases b <;> rfl
    exact {
      handle := asked.alike.handle
      same_settings := asked.alike.settings
      linked := rfl
      registered := rfl
      counters := asked.counters
      stands := ⟨_, _, _, rfl, Array.size_replicate,
        ⟨stands.opened, stands.signal, stands.not_closed, stands.no_buffer, stands.reading,
          stands.sized, stands.sound, stands.silent⟩,
        (up _).trans (Journal.offer_isReady _ _).symm⟩
      request := opened }

theorem started_of_setUp {host' : Host} (set_up : setUp settings host = (.ok w, host')) :
    ∃ root, Started settings host root w := by
  rcases setUp_cases settings host with ⟨e, w', host'', failed, -⟩ |
    ⟨root, w', host'', set_up', -, started⟩
  · rw [set_up] at failed
    simp at failed
  · rw [set_up] at set_up'
    obtain rfl : w = w' := Except.ok.inj (Prod.mk.inj set_up').1
    exact ⟨root, started⟩

end Watch

end DirWatch
