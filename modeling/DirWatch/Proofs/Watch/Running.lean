import DirWatch.Proofs.Watch.Starting

/-!
# What happens to a watch that runs

Once it has started, a watch is handed deliveries, its worker looks at the signal, its callback
runs, and its directory may be closed under it (`Watch.Happening`). `Watch.Alert` says how the flag,
the counters and the signal of a watch agree with the one read of its directory, be the directory
open or not: whenever a completion waits to be taken, the signal is up. Whatever happens keeps it
(`Watch.Alert.happen`), so it holds of every watch that runs (`Watch.Running.alert`).
-/

namespace DirWatch

namespace Directory

variable {d : Directory}

/-- An operation leaves the read of a directory alone, or ends it while it waits and raises its
signal. -/
inductive Advance (d d' : Directory) (raised : Option SignalName) : Prop where
  | kept (slot : d'.slot = d.slot)
      (as_open : ∀ buffer name, d.slot = .armed buffer name → d'.observation = d.observation)
  | ended {buffer : Buffer} {name : SignalName} {completion : Completion}
      (armed : d.slot = .armed buffer name) (finished : d'.slot = .finished completion)
      (raises : raised = some name)

theorem advance_settle (d : Directory) : d.Advance d.settle.directory d.settle.raised := by
  rcases d.settle_cases with ⟨buffer, name, armed, -, settles⟩ | ⟨-, settles⟩
  · rw [settles]
    exact .ended armed rfl rfl
  · rw [settles]
    exact .kept rfl fun _ _ _ => rfl

theorem advance_record (present : RawPath → Bool) (d : Directory) (delivery : Delivery) :
    d.Advance (d.record present delivery).directory (d.record present delivery).raised := by
  by_cases closed : d.observation = .closed
  · rw [record, if_pos closed]
    exact .kept rfl fun _ _ _ => rfl
  · -- what is entered changes the journal only
    have advance := (d.enter present delivery).advance_settle
    rw [record, if_neg closed]
    rw [enter_eq] at advance ⊢
    cases advance with
    | kept slot as_open => exact .kept slot as_open
    | ended armed finished raises => exact .ended armed finished raises

theorem advance_close (d : Directory) : d.Advance d.close.directory d.close.raised := by
  by_cases closed : d.observation = .closed
  · rw [close, if_pos closed]
    exact .kept rfl fun _ _ _ => rfl
  · cases slot : d.slot with
    | armed buffer name =>
      rw [close_armed closed slot]
      exact .ended slot rfl rfl
    | idle =>
      rw [close_unarmed closed (by simp [slot])]
      exact .kept rfl fun _ _ armed => by simp [slot] at armed
    | finished completion =>
      rw [close_unarmed closed (by simp [slot])]
      exact .kept rfl fun _ _ armed => by simp [slot] at armed

end Directory

namespace Watch

/-! ## Happenings -/

/-- What can happen to a watch that has started. -/
inductive Happening where
  /-- The backend delivers something. -/
  | deliver (present : RawPath → Bool) (delivery : Delivery)
  /-- The worker looks at the signal. -/
  | work (host : Host)
  /-- The callback runs, whether the signal is up or not. -/
  | callBack (host : Host)
  /-- The directory is closed under the watch, as by a backend that dies. -/
  | sever

/-- Closes the directory of a watch, and nothing else. -/
def sever (w : Watch) : Watch :=
  match w.directory with
  | none => w
  | some d => { w with directory := some d.close.directory }.raise d.close.raised

/-- Lets one thing happen to a watch. The answer begins with what the watch reports. -/
def happen (w : Watch) : Happening → List Payload × Watch
  | .deliver present delivery => ([], w.deliver present delivery)
  | .work host => ((w.work host).1, (w.work host).2.1)
  | .callBack host => ((w.onReadComplete host).1, (w.onReadComplete host).2.1)
  | .sever => ([], w.sever)

/-- Lets one thing after another happen to a watch. -/
def undergo (w : Watch) : List Happening → List Payload × Watch
  | [] => ([], w)
  | x :: rest =>
    ((w.happen x).1 ++ ((w.happen x).2.undergo rest).1, ((w.happen x).2.undergo rest).2)

/-- The watches that come about when things happen to one that has started. -/
inductive Running : Watch → Prop where
  | started {handle : Handle} {settings : WatchSettings} {host host' : Host} {w : Watch}
      (start : (unstarted handle settings).start host = (.ok (), w, host')) : Running w
  | happen {w : Watch} (before : Running w) (x : Happening) : Running (w.happen x).2

/-! ## The callback, case by case -/

/-- What the callback of a watch with this directory does. -/
inductive Called (w : Watch) (d : Directory) (host : Host) :
    List Payload × Watch × Host → Prop where
  /-- There is nothing to take. -/
  | idle (unfinished : ∀ completion, d.slot ≠ .finished completion) : Called w d host ([], w, host)
  /-- A failure is reported, and is the last thing. -/
  | failed {e : IoError} (finished : d.slot = .finished (.failed e)) :
      Called w d host
        (w.report (.failure e), w.endRead { d with slot := .idle } (.failed e), host)
  /-- A watch that is closing reports what its read has found, and asks for no more. -/
  | closing {buffer : Buffer} {bytes : Nat} (finished : d.slot = .finished (.done buffer bytes))
      (closed : w.closed = true) :
      Called w d host
        (w.report (.changes (Record.decodeFiltered buffer bytes w.settings.patterns)),
          w.endRead { d with slot := .idle } (.done buffer bytes), host)
  /-- The next read is asked for. -/
  | again {buffer : Buffer} {bytes : Nat} {w' : Watch} {host' : Host}
      (finished : d.slot = .finished (.done buffer bytes)) (not_closed : w.closed = false)
      (asks : (w.endRead { d with slot := .idle } (.done buffer bytes)).initiateRead host =
        (.ok (), w', host')) :
      Called w d host
        (w.report (.changes (Record.decodeFiltered buffer bytes w.settings.patterns)), w', host')
  /-- The next read is refused, which is reported, too. -/
  | refused {buffer : Buffer} {bytes : Nat} {e : IoError} {w' : Watch} {host' : Host}
      (finished : d.slot = .finished (.done buffer bytes)) (not_closed : w.closed = false)
      (asks : (w.endRead { d with slot := .idle } (.done buffer bytes)).initiateRead host =
        (.error e, w', host')) :
      Called w d host
        (w.report (.changes (Record.decodeFiltered buffer bytes w.settings.patterns)) ++
          w'.report (.failure e), w', host')

variable {w : Watch} {d d' : Directory} {l : Latch}

theorem called (opened : w.directory = some d) (host : Host) :
    w.Called d host (w.onReadComplete host) := by
  rw [onReadComplete, opened]
  cases slot : d.slot with
  | idle =>
    simp only [Directory.take, slot]
    exact .idle (by simp [slot])
  | armed buffer name =>
    simp only [Directory.take, slot]
    exact .idle (by simp [slot])
  | finished completion =>
    simp only [Directory.take, slot]
    cases completion with
    | failed e => exact .failed slot
    | done buffer bytes =>
      simp only
      split
      · next closed => exact .closing slot closed
      · next not_closed =>
        have not_closed : w.closed = false := by simpa [endRead] using not_closed
        split
        · next asks => exact .again slot not_closed asks
        · next asks => exact .refused slot not_closed asks

/-! ## What stays -/

theorem alike_initiateRead (w : Watch) (host : Host) : w.Alike (w.initiateRead host).2.1 := by
  rw [initiateRead]
  split
  · dsimp only
    split
    · refine Alike.trans ?_ (alike_raise _ _)
      exact ⟨rfl, rfl, rfl, rfl⟩
    · exact ⟨rfl, rfl, rfl, rfl⟩
  · exact .refl w

theorem alike_onReadComplete (w : Watch) (host : Host) : w.Alike (w.onReadComplete host).2.1 := by
  cases opened : w.directory with
  | none =>
    rw [onReadComplete, opened]
    exact .refl w
  | some d =>
    have again : ∀ {buffer bytes result w' host'},
        (w.endRead { d with slot := .idle } (.done buffer bytes)).initiateRead host =
          (result, w', host') → w.Alike w' := by
      intro buffer bytes result w' host' asks
      have asked :=
        alike_initiateRead (w.endRead { d with slot := .idle } (.done buffer bytes)) host
      rw [asks] at asked
      exact (alike_endRead w _ _).trans asked
    have happens := called opened host
    generalize w.onReadComplete host = outcome at happens ⊢
    cases happens with
    | idle unfinished => exact .refl w
    | @failed e finished =>
      show w.Alike (w.endRead { d with slot := .idle } (.failed e))
      exact alike_endRead w _ _
    | @closing buffer bytes finished closed =>
      show w.Alike (w.endRead { d with slot := .idle } (.done buffer bytes))
      exact alike_endRead w _ _
    | again finished not_closed asks => exact again asks
    | refused finished not_closed asks => exact again asks

theorem alike_work (w : Watch) (host : Host) : w.Alike (w.work host).2.1 := by
  rw [work]
  split
  · have consumed : w.Alike w.consumeSignal := ⟨rfl, rfl, rfl, rfl⟩
    exact consumed.trans (alike_onReadComplete _ host)
  · exact .refl w

theorem alike_sever (w : Watch) : w.Alike w.sever := by
  rw [sever]
  split
  · exact .refl w
  · next d _ =>
    have severed : w.Alike { w with directory := some d.close.directory } := ⟨rfl, rfl, rfl, rfl⟩
    exact severed.trans (alike_raise _ _)

/-- Nothing that happens closes a watch or takes its link away. -/
theorem alike_happen (w : Watch) (x : Happening) : w.Alike (w.happen x).2 := by
  cases x with
  | deliver present delivery => exact alike_deliver present w delivery
  | work host => exact alike_work w host
  | callBack host => exact alike_onReadComplete w host
  | sever => exact alike_sever w

/-! ## Agreement -/

/-- The flag and the counters of a watch agree with the read of its directory. -/
structure Agrees (w : Watch) (d : Directory) (l : Latch) : Prop where
  opened : w.directory = some d
  signal : w.signal = some l
  under_way : w.readOutstanding = true ↔ d.slot ≠ .idle
  /-- A read that waits will raise the signal of the watch, and its directory is open. -/
  armed : ∀ buffer name, d.slot = .armed buffer name →
    name = w.signalName ∧ d.observation ≠ .closed
  counted : w.Counted

/-- The signal of a watch is up whenever a completion waits to be taken. -/
structure Alert (w : Watch) (d : Directory) (l : Latch) : Prop extends Agrees w d l where
  up : ∀ completion, d.slot = .finished completion → l.isUp = true

theorem Agrees.congr {w' : Watch} (h : w.Agrees d l) (handle : w'.handle = w.handle)
    (directory : w'.directory = w.directory) (signal : w'.signal = w.signal)
    (reading : w'.readOutstanding = w.readOutstanding) (counters : w'.counters = w.counters) :
    w'.Agrees d l where
  opened := directory.trans h.opened
  signal := signal.trans h.signal
  under_way := by rw [reading]; exact h.under_way
  armed buffer name waits := by
    rw [signalName, handle]
    exact h.armed buffer name waits
  counted := h.counted.congr counters reading

theorem Alert.markClosed (h : w.Alert d l) : w.markClosed.Alert d l :=
  ⟨h.toAgrees.congr rfl rfl rfl rfl rfl, h.up⟩

theorem Agrees.consume (h : w.Agrees d l) : w.consumeSignal.Agrees d .down where
  opened := h.opened
  signal := by rw [consumeSignal, h.signal]; rfl
  under_way := h.under_way
  armed := h.armed
  counted := h.counted.congr rfl rfl

/-- Only a signal of its own reaches a watch. -/
theorem signal_raise (signal : w.signal = some l) (raised : Option SignalName) :
    ∃ l', w.raise raised = { w with signal := some l' } ∧ (l.isUp = true → l'.isUp = true) ∧
      (raised = some w.signalName → l'.isUp = true) := by
  by_cases own : raised = some w.signalName
  · refine ⟨l.raise, ?_, fun _ => rfl, fun _ => rfl⟩
    rw [raise, if_pos own, signal]
    rfl
  · refine ⟨l, ?_, fun up => up, fun is_own => absurd is_own own⟩
    rw [raise, if_neg own, ← signal]

/-- The watch goes on with its directory. -/
theorem Alert.advance (h : w.Alert d l) {raised : Option SignalName}
    (advance : d.Advance d' raised) :
    ∃ l', ({ w with directory := some d' }.raise raised).Alert d' l' := by
  obtain ⟨l', raises, stays_up, own_up⟩ :=
    signal_raise (w := { w with directory := some d' }) h.signal raised
  rw [raises]
  refine ⟨l', ⟨⟨rfl, rfl, ?_, ?_, h.counted.congr rfl rfl⟩, ?_⟩⟩
  · show w.readOutstanding = true ↔ d'.slot ≠ .idle
    rw [h.under_way]
    cases advance with
    | kept slot as_open => rw [slot]
    | ended armed finished raises => simp [armed, finished]
  · intro buffer name waits
    cases advance with
    | kept slot as_open =>
      rw [slot] at waits
      rw [as_open buffer name waits]
      exact h.armed buffer name waits
    | ended armed finished raises => simp [finished] at waits
  · intro completion finished
    cases advance with
    | kept slot as_open => exact stays_up (h.up completion (slot ▸ finished))
    | ended armed finished' raises =>
      obtain ⟨own, -⟩ := h.armed _ _ armed
      exact own_up (own ▸ raises)

/-! ## Each happening keeps the agreement -/

theorem Alert.deliver (h : w.Alert d l) (present : RawPath → Bool) (delivery : Delivery) :
    ∃ d' l', (w.deliver present delivery).Alert d' l' := by
  obtain ⟨l', delivered⟩ := h.advance (d.advance_record present delivery)
  refine ⟨(d.record present delivery).directory, l', ?_⟩
  rw [Watch.deliver, h.opened]
  exact delivered

/-- A directory that is closed under its watch has no read that waits. -/
theorem Alert.sever (h : w.Alert d l) : ∃ l', w.sever.Alert d.close.directory l' := by
  obtain ⟨l', severed⟩ := h.advance d.advance_close
  refine ⟨l', ?_⟩
  rw [Watch.sever, h.opened]
  exact severed

/-- A watch without a read asks for one, and is refused or has one then. -/
theorem Agrees.initiateRead (h : w.Agrees d l) (idle : d.slot = .idle) (host : Host) :
    ∃ d' l', (w.initiateRead host).2.1.Alert d' l' := by
  have not_reading : w.readOutstanding = false := by
    cases reading : w.readOutstanding with
    | false => rfl
    | true => exact absurd idle (h.under_way.mp reading)
  rcases d.read_outcome host w.nextBuffer w.settings.includeSubtree w.settings.filter
    w.signalName with ⟨d', e, host', refuses, slot⟩ | ⟨asked, host', accepts, armed, still_open, -⟩
  · rw [initiateRead_refused h.signal h.opened refuses]
    have no_read : d'.slot = .idle := slot.trans idle
    refine ⟨d', l, ⟨⟨rfl, h.signal, ?_, ?_, ?_⟩, ?_⟩⟩
    · simp [no_read]
    · intro buffer name waits
      simp [no_read] at waits
    · exact h.counted.refused not_reading rfl rfl
    · intro completion finished
      simp [no_read] at finished
  · -- the read is armed first, and goes on as the directory does
    have waits : ({ w with
        buffer := none, readOutstanding := true, counters := w.counters.issue
        directory := some asked } : Watch).Alert asked l := by
      refine ⟨⟨rfl, h.signal, by simp [armed], ?_, h.counted.issue not_reading rfl rfl⟩, ?_⟩
      · intro buffer name same
        rw [armed] at same
        obtain ⟨-, rfl⟩ := ReadSlot.armed.inj same
        exact ⟨rfl, still_open⟩
      · intro completion finished
        simp [armed] at finished
    obtain ⟨l', settled⟩ := waits.advance asked.advance_settle
    refine ⟨asked.settle.directory, l', ?_⟩
    rw [initiateRead_accepted h.signal h.opened accepts]
    exact settled

/-- When its completion is taken, the read of a watch has ended. -/
theorem Agrees.endRead (h : w.Agrees d l) {completion : Completion}
    (finished : d.slot = .finished completion) :
    (w.endRead { d with slot := .idle } completion).Agrees { d with slot := .idle } l := by
  have reading : w.readOutstanding = true := h.under_way.mpr (by simp [finished])
  cases completion with
  | failed e =>
    refine ⟨rfl, h.signal, by simp [Watch.endRead], ?_, h.counted.finish reading rfl rfl⟩
    intro buffer name waits
    simp at waits
  | done buffer bytes =>
    refine ⟨rfl, h.signal, by simp [Watch.endRead], ?_, h.counted.finish reading rfl rfl⟩
    intro buffer name waits
    simp at waits

/-- Whether the signal was up or not, it agrees with the read when the callback is through. -/
theorem Agrees.callBack (h : w.Agrees d l) (host : Host) :
    ∃ d' l', (w.onReadComplete host).2.1.Alert d' l' := by
  have taken : ∀ {completion}, d.slot = .finished completion →
      (w.endRead { d with slot := .idle } completion).Alert { d with slot := .idle } l := by
    intro completion finished
    exact ⟨h.endRead finished, fun c again => by simp at again⟩
  have happens := called h.opened host
  generalize w.onReadComplete host = outcome at happens ⊢
  cases happens with
  | idle unfinished => exact ⟨d, l, h, fun completion finished => absurd finished (unfinished _)⟩
  | failed finished => exact ⟨_, l, taken finished⟩
  | closing finished closed => exact ⟨_, l, taken finished⟩
  | again finished not_closed asks =>
    have asked := (h.endRead finished).initiateRead rfl host
    rwa [asks] at asked
  | refused finished not_closed asks =>
    have asked := (h.endRead finished).initiateRead rfl host
    rwa [asks] at asked

theorem Alert.work (h : w.Alert d l) (host : Host) : ∃ d' l', (w.work host).2.1.Alert d' l' := by
  rw [Watch.work]
  split
  · exact h.toAgrees.consume.callBack host
  · exact ⟨d, l, h⟩

theorem Alert.happen (h : w.Alert d l) (x : Happening) : ∃ d' l', (w.happen x).2.Alert d' l' := by
  cases x with
  | deliver present delivery => exact h.deliver present delivery
  | work host => exact h.work host
  | callBack host => exact h.toAgrees.callBack host
  | sever =>
    obtain ⟨l', severed⟩ := h.sever
    exact ⟨_, l', severed⟩

/-! ## Watches that run -/

/-- A watch that stands at a stage is alert, if its signal is up when a completion is ready. -/
theorem At.alert {root : RawPath} {stage : Stage} {j : Journal} (h : w.At root stage j l)
    (up : stage.isReady = true → l.isUp = true) (counted : w.Counted) :
    w.Alert (w.directoryAt root stage j) l := by
  refine ⟨⟨h.opened, h.signal, ?_, ?_, counted⟩, ?_⟩
  · rw [h.reading]
    cases stage <;> simp [directoryAt, Stage.isReading, Stage.slot]
  · intro buffer name waits
    cases stage with
    | waiting buffer' =>
      obtain ⟨-, rfl⟩ := ReadSlot.armed.inj waits
      exact ⟨rfl, by simp [directoryAt]⟩
    | ready completion => simp [directoryAt, Stage.slot] at waits
    | ended => simp [directoryAt, Stage.slot] at waits
  · intro completion finished
    cases stage with
    | ready completion' => exact up rfl
    | waiting buffer => simp [directoryAt, Stage.slot] at finished
    | ended => simp [directoryAt, Stage.slot] at finished

/-- A watch that has just started has its first read. -/
theorem alert_of_start {handle : Handle} {settings : WatchSettings} {host host' : Host}
    (start : (unstarted handle settings).start host = (.ok (), w, host')) :
    w.closed = false ∧ ∃ d l, w.Alert d l := by
  rcases start_cases handle settings host with ⟨e, w', host'', failed, -⟩ |
    ⟨root, asking, w', host'', started, -, -, asked, rfl⟩
  · rw [start] at failed
    simp at failed
  · rw [start] at started
    obtain ⟨-, same⟩ := Prod.mk.inj started
    obtain ⟨rfl, -⟩ := Prod.mk.inj same
    have counted : asking.Counted :=
      (counted_opening handle settings root).issue rfl asked.counters asked.reading
    have alert := asked.stands.alert (fun ready => ?_) counted
    · exact ⟨asked.stands.not_closed, _, _, alert.toAgrees.congr rfl rfl rfl rfl rfl, alert.up⟩
    · rw [Journal.offer_isReady] at ready
      rw [if_pos ready]
      rfl

theorem Running.alert (h : w.Running) : w.closed = false ∧ ∃ d l, w.Alert d l := by
  induction h with
  | started start => exact alert_of_start start
  | @happen w before x ih =>
    obtain ⟨not_closed, d, l, alert⟩ := ih
    exact ⟨(alike_happen w x).closed.trans not_closed, alert.happen x⟩

end Watch

end DirWatch
