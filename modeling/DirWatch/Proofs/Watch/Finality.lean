import DirWatch.Proofs.Watch.CleanClosing
import DirWatch.Proofs.Watch.Reporting
import DirWatch.Proofs.Watch.Room
import Mathlib.Tactic.ByContra

/-!
# Errors are final

Whatever becomes of a watch, an error is the last thing that it reports (`LastWord`). From then on
it has no read and asks for none (`Watch.Standing.rests`), so that nothing that happens to it, and
not even its being closed, makes it report or count anything (`Watch.Resting.receive`). Its
directory may stay open and go on to record, as far as there is room.
-/

namespace DirWatch

/-! ## Last words -/

/-- Nothing is reported behind an error. -/
def LastWord (reports : List Payload) : Prop :=
  ∀ before e behind, reports = before ++ Payload.failure e :: behind → behind = []

theorem lastWord_nil : LastWord [] := by
  intro before e behind same
  simp at same

theorem lastWord_failure (e : IoError) : LastWord [.failure e] := by
  intro before e' behind same
  cases before with
  | nil => exact (List.cons.inj same).2.symm
  | cons p rest => simp at same

/-- Reports without errors may come before all others. -/
theorem LastWord.append {reports more : List Payload} (h : LastWord more)
    (no_error : ∀ e, Payload.failure e ∉ reports) : LastWord (reports ++ more) := by
  induction reports with
  | nil => exact h
  | cons p rest ih =>
    intro before e behind same
    cases before with
    | nil =>
      obtain ⟨rfl, -⟩ := List.cons.inj same
      exact absurd List.mem_cons_self (no_error e)
    | cons q before =>
      have later : ∀ e, Payload.failure e ∉ rest :=
        fun e he => no_error e (List.mem_cons_of_mem _ he)
      exact ih later before e behind (List.cons.inj same).2

/-- Then there is one error at most. -/
theorem LastWord.once {reports : List Payload} (h : LastWord reports) :
    (reports.filter fun p => p.status = .error).length ≤ 1 := by
  induction reports with
  | nil => exact Nat.zero_le 1
  | cons p rest ih =>
    cases p with
    | failure e =>
      rw [h [] e rest rfl]
      exact Nat.le_refl 1
    | changes found =>
      have silent : (Payload.changes found).status ≠ .error := by
        cases found <;> simp [Payload.status]
      rw [List.filter_cons_of_neg (by simpa using silent)]
      apply ih
      intro before e behind same
      exact h (.changes found :: before) e behind (congrArg (_ :: ·) same)

namespace Watch

variable {w : Watch} {d : Directory} {l : Latch} {host : Host}

/-! ## What the callback reports -/

/-- What the callback has to report of the read that has ended. -/
def finding? (w : Watch) : Option Payload :=
  match w.directory.bind fun d => d.take.1 with
  | none => none
  | some (.failed e) => some (.failure e)
  | some (.done buffer bytes) =>
    some (.changes (Record.decodeFiltered buffer bytes w.settings.patterns))

/-- A watch asks for its next read when the one before has found something. -/
theorem eq_of_mem_nextRequest {asking : Watch} (asks : asking ∈ w.nextRequest) :
    ∃ d buffer bytes, w.directory = some d ∧ d.slot = .finished (.done buffer bytes) ∧
      w.closed = false ∧ asking = w.endRead { d with slot := .idle } (.done buffer bytes) := by
  rw [nextRequest] at asks
  split at asks
  · exact absurd asks List.not_mem_nil
  · next d opened =>
    rw [Directory.take] at asks
    split at asks
    · next buffer bytes taken same =>
      split at same
      · next completion finished =>
        obtain ⟨done, rfl⟩ := Prod.mk.inj same
        obtain rfl := Option.some.inj done
        split at asks
        · exact absurd asks List.not_mem_nil
        · next not_closed =>
          exact ⟨d, buffer, bytes, opened, finished, by simpa using not_closed,
            List.mem_singleton.mp asks⟩
      · simp at same
    · exact absurd asks List.not_mem_nil

theorem report_of_linked (linked : w.linked = true) (p : Payload) : w.report p = [p] :=
  if_pos linked

/-- A refusal of the next read is reported behind what the read before it has found. -/
theorem reports_of_refused {asking : Watch} {e : IoError} (linked : w.linked = true)
    (asks : asking ∈ w.nextRequest) (refused : (asking.initiateRead host).1 = .error e) :
    ∃ found, w.finding? = some (.changes found) ∧
      (w.onReadComplete host).1 = [.changes found, .failure e] := by
  obtain ⟨d, buffer, bytes, opened, finished, not_closed, rfl⟩ := eq_of_mem_nextRequest asks
  have taken : d.take = (some (.done buffer bytes), { d with slot := .idle }) := by
    rw [Directory.take, finished]
  have alike := alike_initiateRead (w.endRead { d with slot := .idle } (.done buffer bytes)) host
  have ended : (w.endRead { d with slot := .idle } (.done buffer bytes)).closed = false ∧
      (w.endRead { d with slot := .idle } (.done buffer bytes)).linked = true :=
    ⟨not_closed, linked⟩
  refine ⟨Record.decodeFiltered buffer bytes w.settings.patterns, ?_, ?_⟩
  · rw [finding?, opened, Option.bind_some, taken]
  · rw [onReadComplete, opened]
    simp only [taken, ended.1]
    generalize (w.endRead _ _).initiateRead host = outcome at alike refused ⊢
    obtain ⟨answer, w', host'⟩ := outcome
    obtain rfl : answer = .error e := refused
    show report _ (Payload.changes _) ++ w'.report (Payload.failure e) = _
    rw [report_of_linked ended.2, report_of_linked (alike.linked.trans ended.2)]
    rfl

theorem eq_of_mem_report {p q : Payload} (mem : p ∈ w.report q) : p = q := by
  rw [report] at mem
  split at mem
  · exact List.mem_singleton.mp mem
  · exact absurd mem List.not_mem_nil

theorem lastWord_report (w : Watch) (e : IoError) : LastWord (w.report (.failure e)) := by
  rw [report]
  split
  · exact lastWord_failure e
  · exact lastWord_nil

/-- A watch to which a read is refused has none. -/
theorem reading_of_refused {host' : Host} {w' : Watch} {e : IoError} (signal : w.signal = some l)
    (opened : w.directory = some d) (asks : w.initiateRead host = (.error e, w', host')) :
    w'.readOutstanding = false := by
  rw [initiateRead_eq signal opened] at asks
  generalize d.read host w.nextBuffer _ _ _ = outcome at asks
  obtain ⟨⟨d', answer, raised⟩, host''⟩ := outcome
  cases answer with
  | ok => simp at asks
  | error e' =>
    obtain ⟨-, left⟩ := Prod.mk.inj asks
    rw [← (Prod.mk.inj left).1]

/-- An error is the last thing that the callback reports, and no read is under way then. -/
theorem lastWord_onReadComplete (opened : w.directory = some d) (signal : w.signal = some l)
    (host : Host) :
    LastWord (w.onReadComplete host).1 ∧
      ∀ e, Payload.failure e ∈ (w.onReadComplete host).1 →
        (w.onReadComplete host).2.1.readOutstanding = false := by
  have changes_only : ∀ {found : List Change},
      ∀ e, Payload.failure e ∉ w.report (Payload.changes found) := by
    intro found e mem
    have same := eq_of_mem_report mem
    contradiction
  have silent : ∀ {found : List Change}, LastWord (w.report (Payload.changes found)) := by
    intro found
    rw [← List.append_nil (w.report _)]
    exact lastWord_nil.append changes_only
  have happens := called opened host
  generalize w.onReadComplete host = outcome at happens ⊢
  cases happens with
  | idle unfinished => exact ⟨lastWord_nil, fun e mem => absurd mem List.not_mem_nil⟩
  | failed finished => exact ⟨lastWord_report w _, fun _ _ => rfl⟩
  | closing finished closed => exact ⟨silent, fun e mem => absurd mem (changes_only e)⟩
  | again finished not_closed asks => exact ⟨silent, fun e mem => absurd mem (changes_only e)⟩
  | @refused buffer bytes e w' host' finished not_closed asks =>
    have idle : w'.readOutstanding = false :=
      reading_of_refused (w := w.endRead { d with slot := .idle } (.done buffer bytes)) signal rfl
        asks
    exact ⟨(lastWord_report _ _).append changes_only, fun _ _ => idle⟩

theorem lastWord_happen (opened : w.directory = some d) (signal : w.signal = some l)
    (x : Happening) :
    LastWord (w.happen x).1 ∧
      ∀ e, Payload.failure e ∈ (w.happen x).1 → (w.happen x).2.readOutstanding = false := by
  cases x with
  | deliver present delivery => exact ⟨lastWord_nil, fun e mem => absurd mem List.not_mem_nil⟩
  | sever => exact ⟨lastWord_nil, fun e mem => absurd mem List.not_mem_nil⟩
  | callBack host => exact lastWord_onReadComplete opened signal host
  | work host =>
    show LastWord (w.work host).1 ∧ ∀ e, Payload.failure e ∈ (w.work host).1 →
      (w.work host).2.1.readOutstanding = false
    rw [work]
    split
    · have consumed : w.consumeSignal.signal = some l.consume.2 := by
        rw [consumeSignal, signal]
        rfl
      exact lastWord_onReadComplete (w := w.consumeSignal) opened consumed host
    · exact ⟨lastWord_nil, fun e mem => absurd mem List.not_mem_nil⟩

/-! ## What an act lets happen to one watch -/

/-- What an act in a session comes to for one watch. -/
inductive Share where
  | nothing
  | happening (x : Happening)
  | closing

/-- The reports that a watch makes when it gets its share of an act, and the watch afterwards. -/
def receive (w : Watch) : Share → List Payload × Watch
  | .nothing => ([], w)
  | .happening x => w.happen x
  | .closing => ([], w.close)

/-- The watch as it asks for a read, if it does. -/
def asks (w : Watch) : Share → List Watch
  | .happening (.work _) => if w.isSignaled then w.consumeSignal.nextRequest else []
  | .happening (.callBack _) => w.nextRequest
  | _ => []

/-- A watch that is shut has no share in anything. -/
theorem Shut.receive (shut : w.Shut) (share : Share) : w.receive share = ([], w) := by
  cases share with
  | nothing => rfl
  | happening x => rw [Watch.receive, shut.happen]
  | closing => rw [Watch.receive, shut.close]

theorem Shut.asks (shut : w.Shut) (share : Share) : w.asks share = [] := by
  cases share with
  | nothing => rfl
  | closing => rfl
  | happening x =>
    cases x with
    | deliver present delivery => rfl
    | sever => rfl
    | callBack host => exact shut.nextRequest
    | work host =>
      rw [Watch.asks, isSignaled, shut.signal]
      rfl

/-- A watch is shut, or it runs as it should. -/
inductive Sane (w : Watch) : Prop where
  | running {d : Directory} {l : Latch} (alert : w.Alert d l) (not_closed : w.closed = false)
      (linked : w.linked = true)
  | shut (shut : w.Shut)

theorem Sane.receive (h : w.Sane) (share : Share) : (w.receive share).2.Sane := by
  cases h with
  | running alert not_closed linked =>
    cases share with
    | nothing => exact .running alert not_closed linked
    | happening x =>
      have alike := alike_happen w x
      obtain ⟨d', l', later⟩ := alert.happen x
      exact .running later (alike.closed.trans not_closed) (alike.linked.trans linked)
    | closing => exact .shut (close_spec not_closed).2
  | shut shut =>
    rw [shut.receive share]
    exact .shut shut

theorem settings_close (w : Watch) : w.close.settings = w.settings := by
  rw [close]
  split
  · rfl
  · have shut : w.markClosed.closeDirectory.settings = w.settings := by
      rw [closeDirectory_eq_sever]
      exact (alike_sever _).settings
    rw [finishClosing]
    split
    · exact shut
    · exact shut

theorem Sane.settings (h : w.Sane) (share : Share) :
    (w.receive share).2.settings = w.settings := by
  cases h with
  | running alert not_closed linked =>
    cases share with
    | nothing => rfl
    | closing => exact w.settings_close
    | happening x => exact (alike_happen w x).settings
  | shut shut => rw [shut.receive share]

theorem Sane.handle (h : w.Sane) (share : Share) : (w.receive share).2.handle = w.handle := by
  cases h with
  | running alert not_closed linked =>
    cases share with
    | nothing => rfl
    | happening x => exact (alike_happen w x).handle
    | closing => exact (close_spec not_closed).1
  | shut shut => rw [shut.receive share]

theorem Sane.lastWord (h : w.Sane) (share : Share) :
    LastWord (w.receive share).1 ∧
      ∀ e, Payload.failure e ∈ (w.receive share).1 →
        (w.receive share).2.readOutstanding = false := by
  cases h with
  | running alert not_closed linked =>
    cases share with
    | nothing => exact ⟨lastWord_nil, fun e mem => absurd mem List.not_mem_nil⟩
    | closing => exact ⟨lastWord_nil, fun e mem => absurd mem List.not_mem_nil⟩
    | happening x => exact lastWord_happen alert.opened alert.signal x
  | shut shut =>
    rw [shut.receive share]
    exact ⟨lastWord_nil, fun e mem => absurd mem List.not_mem_nil⟩

/-- If the read that a watch asks for is refused, the error comes behind what has been found. -/
theorem Sane.refused (h : w.Sane) {share : Share} {asking : Watch} {e : IoError}
    (calls : share = .happening (.callBack host) ∨ share = .happening (.work host))
    (asks : asking ∈ w.asks share) (refused : (asking.initiateRead host).1 = .error e) :
    ∃ found, w.finding? = some (.changes found) ∧
      (w.receive share).1 = [.changes found, .failure e] := by
  cases h with
  | shut shut =>
    rw [shut.asks share] at asks
    exact absurd asks List.not_mem_nil
  | running alert not_closed linked =>
    rcases calls with rfl | rfl
    · exact reports_of_refused linked asks refused
    · rw [Watch.asks] at asks
      split at asks
      · next signaled =>
        have works : (w.receive (.happening (.work host))).1 =
            (w.consumeSignal.onReadComplete host).1 := by
          show (w.work host).1 = _
          rw [work, if_pos signaled]
        rw [works]
        exact reports_of_refused (w := w.consumeSignal) linked asks refused
      · exact absurd asks List.not_mem_nil

/-! ## Watches at rest -/

/-- A watch without a read. -/
structure Resting (w : Watch) : Prop where
  sane : w.Sane
  idle : w.readOutstanding = false

/-- The callback of a watch without a read finds nothing. -/
theorem callBack_idle (opened : w.directory = some d) (idle : d.slot = .idle) (host : Host) :
    w.onReadComplete host = ([], w, host) ∧ w.nextRequest = [] := by
  have nothing : d.take = (none, d) := by rw [Directory.take, idle]
  constructor
  · rw [onReadComplete, opened]
    simp only [nothing]
  · rw [nextRequest, opened]
    simp only [nothing]

theorem reading_raise (w : Watch) (raised : Option SignalName) :
    (w.raise raised).readOutstanding = w.readOutstanding := by
  rw [raise]
  split <;> rfl

/-- Nothing that happens to a watch without a read makes it report anything, ask for a read or count
one. -/
theorem Alert.quiet (h : w.Alert d l) (idle : d.slot = .idle) (x : Happening) :
    (w.happen x).1 = [] ∧ w.asks (.happening x) = [] ∧
      (w.happen x).2.counters = w.counters ∧
      (w.happen x).2.readOutstanding = w.readOutstanding := by
  cases x with
  | deliver present delivery =>
    refine ⟨rfl, rfl, counters_deliver present w delivery, ?_⟩
    show (w.deliver present delivery).readOutstanding = _
    rw [Watch.deliver, h.opened]
    exact reading_raise _ _
  | sever =>
    refine ⟨rfl, rfl, w.counters_sever, ?_⟩
    show w.sever.readOutstanding = _
    rw [Watch.sever, h.opened]
    exact reading_raise _ _
  | callBack host =>
    obtain ⟨nothing, none_asked⟩ := callBack_idle h.opened idle host
    rw [Watch.happen, nothing]
    exact ⟨rfl, none_asked, rfl, rfl⟩
  | work host =>
    have opened : w.consumeSignal.directory = some d := h.opened
    obtain ⟨nothing, none_asked⟩ := callBack_idle opened idle host
    rw [Watch.happen, asks, Watch.work, none_asked, ite_self]
    split
    · rw [nothing]
      exact ⟨rfl, rfl, rfl, rfl⟩
    · exact ⟨rfl, rfl, rfl, rfl⟩

/-- Nothing that happens to a watch without a read matters to anybody, nor does its being closed. -/
theorem Resting.receive (h : w.Resting) (share : Share) :
    (w.receive share).1 = [] ∧ w.asks share = [] ∧
      (w.receive share).2.counters = w.counters ∧ (w.receive share).2.Resting := by
  have sane := h.sane.receive share
  obtain ⟨is_sane, idle⟩ := h
  cases is_sane with
  | shut shut =>
    rw [shut.receive share, shut.asks share]
    exact ⟨rfl, rfl, rfl, .shut shut, idle⟩
  | @running d l alert not_closed linked =>
    cases share with
    | nothing => exact ⟨rfl, rfl, rfl, sane, idle⟩
    | closing =>
      -- closing counts the end of a read only if one is under way
      obtain ⟨-, shut, -, kept⟩ := finishClosing_spec (w := w.markClosed) rfl
      have counters : w.close.counters = w.counters := by
        rw [close_of_open not_closed]
        exact (kept idle).2
      exact ⟨rfl, rfl, counters, sane, (close_spec not_closed).2.idle⟩
    | happening x =>
      -- the flag is down, so that the directory has no read either
      have no_read : d.slot = .idle := by
        by_contra reading
        rw [alert.under_way.mpr reading] at idle
        contradiction
      obtain ⟨nothing, none_asked, counters, still⟩ := alert.quiet no_read x
      exact ⟨nothing, none_asked, counters, sane, still.trans idle⟩

/-! ## How a watch stands -/

/-- How a watch stands that has reported all this. -/
structure Standing (sent : List Payload) (w : Watch) : Prop where
  sane : w.Sane
  bounded : w.Bounded
  last : LastWord sent
  /-- Once it has reported an error, it has no read. -/
  rests : ∀ e, Payload.failure e ∈ sent → w.readOutstanding = false

variable {sent : List Payload}

/-- A watch that has been set up stands, and has reported nothing. -/
theorem Started.standing {settings : WatchSettings} {root : RawPath}
    (started : Started settings host root w) : w.Standing [] := by
  obtain ⟨j, buffer, l, first, -, stands, signalled⟩ := started.stands
  have counted : w.Counted := (counted_opening ⟨host.nextHandle⟩ settings root).issue rfl
    started.counters (stands.reading.trans (Journal.offer_isReading j buffer))
  have alert := stands.alert (fun ready => signalled.trans ready) counted
  have bounded : j.Bounded settings.maxPendingChanges := by
    rw [first]
    exact Directory.bounded_enterAll (Journal.bounded_empty _) _ _
  have offered : (j.offer buffer).2.Bounded settings.maxPendingChanges := by
    rw [Journal.offer]
    split
    · exact bounded.complete buffer
    · exact bounded
  refine ⟨.running alert stands.not_closed started.linked, ?_, lastWord_nil,
    fun e mem => absurd mem List.not_mem_nil⟩
  intro d opened
  obtain rfl := Option.some.inj (stands.opened.symm.trans opened)
  rw [started.same_settings]
  exact offered

theorem Standing.resting (h : w.Standing sent) {e : IoError} (failed : Payload.failure e ∈ sent) :
    w.Resting := ⟨h.sane, h.rests e failed⟩

theorem Standing.bounded_receive (h : w.Standing sent) (share : Share) :
    (w.receive share).2.Bounded := by
  cases h.sane with
  | running alert not_closed linked =>
    cases share with
    | nothing => exact h.bounded
    | happening x => exact h.bounded.happen alert.signal alert.opened x
    | closing =>
      intro d opened
      rw [show (w.receive .closing).2.directory = none from (close_spec not_closed).2.directory]
        at opened
      contradiction
  | shut shut =>
    rw [shut.receive share]
    exact h.bounded

theorem Standing.receive (h : w.Standing sent) (share : Share) :
    (w.receive share).2.Standing (sent ++ (w.receive share).1) := by
  have sane := h.sane.receive share
  by_cases failed : ∃ e, Payload.failure e ∈ sent
  · obtain ⟨e, mem⟩ := failed
    obtain ⟨nothing, -, -, resting⟩ := (h.resting mem).receive share
    rw [nothing, List.append_nil]
    exact ⟨sane, h.bounded_receive share, h.last, fun _ _ => resting.idle⟩
  · -- no error has been reported yet, so that there may be one now
    have no_error : ∀ e, Payload.failure e ∉ sent := fun e mem => failed ⟨e, mem⟩
    obtain ⟨last, idle⟩ := h.sane.lastWord share
    refine ⟨sane, h.bounded_receive share, last.append no_error, ?_⟩
    intro e mem
    rcases List.mem_append.mp mem with before | now
    · exact absurd before (no_error e)
    · exact idle e now

end Watch

end DirWatch
