import DirWatch.Proofs.Session.Reads
import DirWatch.Proofs.Watch.CleanClosing

/-!
# Registration is all or nothing

A registration is admitted or not, and only if it is admitted a watch is made
(`Session.register_eq`). `World.registration_all_or_nothing` says what comes of it: the session is
as it was, and the watch, if one was made, is shut for good; or the session has exactly one watch
more, which is new and has its first read.
-/

namespace DirWatch

namespace Patterns

/-- Patterns can be read together if each of them can. -/
theorem parse_outcome (texts : List String) :
    (∃ e, parse texts = .error e ∧ (texts.all fun t => (Pattern.parse t).isOk) = false) ∨
    ∃ ps : Patterns, parse texts = .ok ps ∧ ps.length = texts.length ∧
      (texts.all fun t => (Pattern.parse t).isOk) = true := by
  induction texts with
  | nil => exact .inr ⟨[], rfl, rfl, rfl⟩
  | cons text rest ih =>
    rw [parse, List.all_cons]
    cases first : Pattern.parse text with
    | error e => exact .inl ⟨e, rfl, rfl⟩
    | ok p =>
      rcases ih with ⟨e, unread, not_all⟩ | ⟨ps, read, length, all⟩
      · rw [unread]
        exact .inl ⟨e, rfl, not_all⟩
      · rw [read]
        exact .inr ⟨p :: ps, rfl, congrArg (· + 1) length, all⟩

end Patterns

namespace Session

variable {s : Session}

/-! ## Admission -/

/-- What a watch is set up with when it is registered, or why it is not even made. -/
def admission (s : Session) (path : String) (includeSubtree : Bool) (filter : Filter)
    (patterns : List String) : Except RegisterError WatchSettings :=
  if s.tornDown then .error (.refused .sessionClosed)
  else
    match Patterns.parse patterns with
    | .error e => .error (.refused e)
    | .ok patterns =>
      if Patterns.limit < patterns.length then .error (.tooManyPatterns patterns.length)
      else .ok (Watch.settingsFor s.config path includeSubtree filter patterns)

/-- A registration is admitted if the session is open and the patterns can be read and are not too
many. -/
def admits (s : Session) (patterns : List String) : Bool :=
  !s.tornDown && (patterns.all fun t => (Pattern.parse t).isOk) &&
    patterns.length ≤ Patterns.limit

theorem isOk_admission (s : Session) (path : String) (includeSubtree : Bool) (filter : Filter)
    (patterns : List String) :
    (s.admission path includeSubtree filter patterns).isOk = s.admits patterns := by
  rw [admission, admits]
  cases s.tornDown with
  | true => rfl
  | false =>
    rcases Patterns.parse_outcome patterns with ⟨e, unread, not_all⟩ | ⟨ps, read, length, all⟩
    · rw [unread, not_all]
      rfl
    · rw [read, all, ← length]
      by_cases many : Patterns.limit < ps.length
      · have refused : decide (ps.length ≤ Patterns.limit) = false :=
          decide_eq_false (Nat.not_le.mpr many)
        simp only [Bool.false_eq_true, if_false, if_pos many, refused]
        rfl
      · have taken : decide (ps.length ≤ Patterns.limit) = true :=
          decide_eq_true (Nat.not_lt.mp many)
        simp only [Bool.false_eq_true, if_false, if_neg many, taken]
        rfl

/-! ## The watch that is made -/

/-- A watch that has been set up joins the session; one that could not be set up does not. -/
def enlist (s : Session) :
    Except (WatchError × Watch) Watch × Host → Except RegisterError Handle × Session × Host
  | (.error (e, _), host) => (.error (.refused e), s, host)
  | (.ok w, host) =>
    (.ok w.handle, { s with watches := s.watches ++ [w], active := s.active ++ [w.handle] }, host)

theorem register_eq (s : Session) (host : Host) (path : String) (includeSubtree : Bool)
    (filter : Filter) (patterns : List String) :
    s.register host path includeSubtree filter patterns =
      match s.admission path includeSubtree filter patterns with
      | .error e => (.error e, s, host)
      | .ok settings => s.enlist (Watch.setUp settings host) := by
  rw [register, admission]
  by_cases torn : s.tornDown
  · simp only [if_pos torn]
  · rw [if_neg torn, if_neg torn]
    cases Patterns.parse patterns with
    | error e => rfl
    | ok ps =>
      by_cases many : Patterns.limit < ps.length
      · simp only [if_pos many]
      · simp only [if_neg many]
        rfl

/-- The watch that a registration makes, whether it starts or is closed again. -/
def made? (s : Session) (host : Host) (path : String) (includeSubtree : Bool) (filter : Filter)
    (patterns : List String) : Option Watch :=
  match s.admission path includeSubtree filter patterns with
  | .error _ => none
  | .ok settings =>
    match (Watch.setUp settings host).1 with
    | .error (_, w) => some w
    | .ok w => some w

/-! ## What comes of a registration -/

/-- A registration that failed, and the watch that it made, if it made one. -/
structure Refused (s s' : Session) (made : Option Watch) : Prop where
  /-- The watches, the active ones among them, the queue, the totals: all is as it was. -/
  unchanged : s' = s
  /-- The watch is closed and holds nothing. -/
  shut : ∀ w ∈ made, w.Shut
  settled : ∀ w ∈ made, w.counters.Settled
  /-- Whatever the backend and the worker may still do, it reports nothing. -/
  silent : ∀ w ∈ made, ∀ later, w.undergo later = ([], w)

/-- A registration that succeeded with a handle, and the watch that it made. -/
structure Joined (s s' : Session) (h : Handle) (w : Watch) : Prop where
  /-- No watch of the session ever had the handle. -/
  new : h ∉ s.active ∧ s.watch? h = none
  added : s' = { s with watches := s.watches ++ [w], active := s.active ++ [h] }
  found : s'.activeWatch? h = some w
  others : ∀ k ≠ h, s'.activeWatch? k = s.activeWatch? k
  /-- The watch is open and has a directory, a signal, a worker and a link to the queue. -/
  not_closed : w.closed = false
  registered : w.registered = true
  linked : w.linked = true
  /-- Its one read waits, or has ended and waits to be taken. -/
  reading : w.readOutstanding = true ∧
    ∃ d l, w.directory = some d ∧ w.signal = some l ∧ d.slot ≠ .idle
  one_issued : w.counters = ⟨1, 0, 0, 1, 1⟩

/-- A session before and after a registration, with the watch that it made, by its answer. -/
def AllOrNothing (s s' : Session) (made : Option Watch) : Except RegisterError Handle → Prop
  | .error _ => s.Refused s' made
  | .ok h => ∃ w, made = some w ∧ w.handle = h ∧ s.Joined s' h w

theorem refused_none (s : Session) : s.Refused s none :=
  ⟨rfl, fun w hw => by simp at hw, fun w hw => by simp at hw, fun w hw => by simp at hw⟩

theorem refused_some {w : Watch} (shut : w.Shut) (counted : w.Counted) :
    s.Refused s (some w) := by
  have only : ∀ v, v ∈ some w → v = w := fun v hv => (Option.mem_some_iff.mp hv).symm
  refine ⟨rfl, ?_, ?_, ?_⟩
  · intro v hv
    rw [only v hv]
    exact shut
  · intro v hv
    rw [only v hv]
    exact counted.settled shut.idle
  · intro v hv
    rw [only v hv]
    exact shut.undergo

end Session

namespace Watch

/-- A watch that has just been set up has issued one read, and it has not been taken. -/
theorem Started.reading {settings : WatchSettings} {host : Host} {root : RawPath} {w : Watch}
    (h : Started settings host root w) : w.closed = false ∧ w.readOutstanding = true ∧
      ∃ d l, w.directory = some d ∧ w.signal = some l ∧ d.slot ≠ .idle := by
  obtain ⟨j, buffer, l, -, -, stands, -⟩ := h.stands
  have reading : (j.offer buffer).1.isReading = true := j.offer_isReading buffer
  refine ⟨stands.not_closed, stands.reading.trans reading, _, l, stands.opened, stands.signal, ?_⟩
  show (j.offer buffer).1.slot w.signalName ≠ .idle
  intro idle
  cases stage : (j.offer buffer).1 with
  | waiting buffer' => simp [stage, Stage.slot] at idle
  | ready completion => simp [stage, Stage.slot] at idle
  | ended => simp [stage, Stage.isReading] at reading

end Watch

namespace World

variable {loose : Bool} {world : World}

/-- A watch that has just been set up joins a session that has not seen its number. -/
theorem Accounted.joined (h : world.Accounted loose) {settings : WatchSettings} {root : RawPath}
    {w : Watch} (started : Watch.Started settings world.host root w) :
    world.session.Joined
      { world.session with
        watches := world.session.watches ++ [w]
        active := world.session.active ++ [w.handle] } w.handle w := by
  have new : world.session.watch? w.handle = none := by
    rw [started.handle]
    exact h.next_unknown
  have not_active : w.handle ∉ world.session.active := by
    rw [started.handle]
    exact h.next_not_active
  obtain ⟨not_closed, under_way, open_still⟩ := started.reading
  refine {
    new := ⟨not_active, new⟩
    added := rfl
    found := ?_
    others := ?_
    not_closed
    registered := started.registered
    linked := started.linked
    reading := ⟨under_way, open_still⟩
    one_issued := started.counters }
  · rw [Session.activeWatch?, if_pos (by simp [Session.contains])]
    exact Session.watch?_append_self new _
  · intro k other
    have contained : Session.contains { world.session with
        watches := world.session.watches ++ [w]
        active := world.session.active ++ [w.handle] } k = world.session.contains k := by
      simp [Session.contains, other]
    rw [Session.activeWatch?, Session.activeWatch?, contained,
      Session.watch?_append_of_ne (Ne.symm other)]

/-- Whatever is registered in whatever session: it fails and leaves nothing behind, or succeeds and
adds one watch, which has its first read. A number is used up exactly if a watch is made, and that
is if the session is open and the patterns can be read and are not too many. -/
theorem registration_all_or_nothing (reachable : world.Reachable true) (path : String)
    (includeSubtree : Bool) (filter : Filter) (patterns : List String) :
    let outcome := world.session.register world.host path includeSubtree filter patterns
    let made := world.session.made? world.host path includeSubtree filter patterns
    world.session.AllOrNothing outcome.2.1 made outcome.1 ∧
      (∀ h, outcome.1 = .ok h → h = ⟨world.host.nextHandle⟩) ∧
      made.isSome = world.session.admits patterns ∧
      outcome.2.2.nextHandle =
        world.host.nextHandle + if world.session.admits patterns then 1 else 0 := by
  have accounted := reachable.accounted
  rw [← world.session.isOk_admission path includeSubtree filter patterns, Session.register_eq,
    Session.made?]
  cases world.session.admission path includeSubtree filter patterns with
  | error e =>
    -- nothing is made, and no number is used up
    exact ⟨world.session.refused_none, fun h answer => by simp at answer, rfl, rfl⟩
  | ok settings =>
    dsimp only
    rcases Watch.setUp_cases settings world.host with
      ⟨e, w, host, set_up, numbers, shut, counted⟩ | ⟨root, w, host, set_up, numbers, started⟩
    · -- the watch was made, could not start, and has been closed again
      rw [set_up]
      have left : world.session.Refused world.session (some w) :=
        Session.refused_some shut counted
      refine ⟨left, ?_, rfl, numbers⟩
      intro h answer
      simp [Session.enlist] at answer
    · rw [set_up]
      refine ⟨⟨w, rfl, rfl, accounted.joined started⟩, ?_, rfl, numbers⟩
      intro h answer
      rw [← started.handle]
      exact (Except.ok.inj answer).symm

/-- A session on an empty file system; the first worker cannot be started. -/
def noWorker : World :=
  start { bufferSize := 16 } { tree := ⟨[], []⟩, workerFailure := some .noEntry }

/-- The same session when a watch has been tried. -/
def oneRefused : World := noWorker.step (.watch "/")

/-- The first watch is closed again with its read counted as one that failed, and the second one
joins the session under the next number. -/
theorem registration_all_or_nothing_noWorker :
    (noWorker.Reachable true ∧ ∃ e session host w,
      noWorker.session.register noWorker.host "/" true .standard [] = (.error e, session, host) ∧
        noWorker.session.Refused session (some w) ∧ w.counters = ⟨1, 0, 1, 0, 1⟩ ∧
        host.nextHandle = 2) ∧
    oneRefused.Reachable true ∧ ∃ session host w,
      oneRefused.session.register oneRefused.host "/" true .standard [] = (.ok ⟨2⟩, session, host) ∧
        oneRefused.session.Joined session ⟨2⟩ w ∧ host.nextHandle = 3 := by
  have before : noWorker.Reachable true := ⟨_, _, [], fun strict => by simp at strict, rfl⟩
  have after : oneRefused.Reachable true :=
    before.run [.watch "/"] fun strict => by simp at strict
  refine ⟨⟨before, ?_⟩, after, ?_⟩
  · obtain ⟨outcome, -⟩ := registration_all_or_nothing before "/" true .standard []
    have answer : (noWorker.session.register noWorker.host "/" true .standard []).1 =
        .error (.refused (.io .noEntry)) := by decide +kernel
    have made : (noWorker.session.made? noWorker.host "/" true .standard []).map Watch.counters =
        some ⟨1, 0, 1, 0, 1⟩ := by decide +kernel
    obtain ⟨w, is_made, counters⟩ := Option.map_eq_some_iff.mp made
    rw [answer, is_made] at outcome
    exact ⟨_, _, _, w, Prod.ext answer rfl, outcome, counters, by decide +kernel⟩
  · obtain ⟨outcome, -⟩ := registration_all_or_nothing after "/" true .standard []
    have answer : (oneRefused.session.register oneRefused.host "/" true .standard []).1 =
        .ok ⟨2⟩ := by decide +kernel
    rw [answer] at outcome
    obtain ⟨w, -, -, joined⟩ := outcome
    exact ⟨_, _, w, Prod.ext answer rfl, joined, by decide +kernel⟩

end World

end DirWatch
