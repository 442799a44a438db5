import DirWatch.Proofs.Directory.Steps
import DirWatch.Watch.Closing

/-!
# Where the reads of a watch stand

A watch that has started waits with a read, has a read whose completion is ready, or reads no more
(`Stage`). `Watch.At` says at which stage a watch stands and what its journal and its signal are
then; it fixes all that the watch holds. One lemma for each operation says where it leads:
`Watch.At.deliver`, `Watch.initiateRead_asked`, `Watch.At.callBack_done`, `Watch.At.callBack_failed`
and `Watch.At.callBack_none`.
-/

namespace DirWatch

/-- Where the reads of a watch stand. -/
inductive Stage where
  /-- A read waits with this buffer. -/
  | waiting (buffer : Buffer)
  /-- A read has ended, and its completion waits for the worker. -/
  | ready (completion : Completion)
  /-- There is no read, and there will be none. -/
  | ended

namespace Stage

def slot (name : SignalName) : Stage → ReadSlot
  | waiting buffer => .armed buffer name
  | ready completion => .finished completion
  | ended => .idle

def isReady : Stage → Bool
  | ready _ => true
  | _ => false

def isReading : Stage → Bool
  | ended => false
  | _ => true

/-- The buffer that the directory has, if it has one, is of this size. -/
def Sized (size : Nat) : Stage → Prop
  | waiting buffer => buffer.size = size
  | ready (.done buffer _) => buffer.size = size
  | _ => True

/-- A read waits only for a journal with nothing to tell. -/
def Silent (j : Journal) : Stage → Prop
  | waiting _ => j.hasOutput = false
  | _ => True

end Stage

/-- A read is asked for: it ends at once if the journal has something to tell. -/
def Journal.offer (j : Journal) (buffer : Buffer) : Stage × Journal :=
  if j.hasOutput then (.ready (j.complete buffer).1, (j.complete buffer).2)
  else (.waiting buffer, j)

namespace Stage

/-- What becomes of a stage when the journal has changed. -/
def refresh (j : Journal) : Stage → Stage × Journal
  | waiting buffer => j.offer buffer
  | stage => (stage, j)

/-- Tells whether a change of the journal ends the read. -/
def wakes (j : Journal) : Stage → Bool
  | waiting _ => j.hasOutput
  | _ => false

end Stage

namespace Journal

variable {j : Journal} {buffer : Buffer} {size : Nat}

theorem pack_size (w : RecordWriter) (pending : List Change) :
    (pack w pending).1.buffer.size = w.buffer.size := by
  induction pending generalizing w with
  | nil => rfl
  | cons c rest ih =>
    rw [pack]
    split
    · next w' taken =>
      rw [ih, RecordWriter.size_of_push? taken]
    · split
      · exact ih w
      · rfl

/-- The buffer of a completion is the buffer of its read. -/
theorem complete_sized (j : Journal) (buffer : Buffer) :
    (Stage.ready (j.complete buffer).1).Sized buffer.size := by
  rw [complete]
  split
  · rfl
  · split
    · trivial
    · exact pack_size (.start buffer) _

theorem offer_of_output (output : j.hasOutput = true) :
    j.offer buffer = (.ready (j.complete buffer).1, (j.complete buffer).2) := if_pos output

theorem offer_of_silent (silent : j.hasOutput = false) :
    j.offer buffer = (.waiting buffer, j) := by
  rw [offer, if_neg (by simp [silent])]

theorem offer_sized (j : Journal) (buffer : Buffer) : (j.offer buffer).1.Sized buffer.size := by
  rw [offer]
  split
  · exact complete_sized j buffer
  · rfl

theorem offer_silent (j : Journal) (buffer : Buffer) :
    (j.offer buffer).1.Silent (j.offer buffer).2 := by
  rw [offer]
  split
  · trivial
  · next silent => simpa [Stage.Silent] using silent

theorem Sound.offer (sound : j.Sound) (buffer : Buffer) : (j.offer buffer).2.Sound := by
  rw [Journal.offer]
  split
  · exact sound.complete buffer
  · exact sound

theorem offer_isReady (j : Journal) (buffer : Buffer) :
    (j.offer buffer).1.isReady = j.hasOutput := by
  cases output : j.hasOutput with
  | true =>
    rw [offer_of_output output]
    rfl
  | false =>
    rw [offer_of_silent output]
    rfl

theorem offer_isReading (j : Journal) (buffer : Buffer) : (j.offer buffer).1.isReading = true := by
  rw [offer]
  split <;> rfl

end Journal

namespace Stage

variable {stage : Stage} {j : Journal} {size : Nat}

theorem Sized.refresh (h : stage.Sized size) (j : Journal) : (stage.refresh j).1.Sized size := by
  cases stage with
  | waiting buffer =>
    obtain rfl : buffer.size = size := h
    exact Journal.offer_sized j buffer
  | ready completion => exact h
  | ended => exact h

theorem silent_refresh (stage : Stage) (j : Journal) :
    (stage.refresh j).1.Silent (stage.refresh j).2 := by
  cases stage with
  | waiting buffer => exact Journal.offer_silent j buffer
  | ready completion => trivial
  | ended => trivial

theorem sound_refresh (sound : j.Sound) (stage : Stage) : (stage.refresh j).2.Sound := by
  cases stage with
  | waiting buffer => exact sound.offer buffer
  | ready completion => exact sound
  | ended => exact sound

theorem isReading_refresh (stage : Stage) (j : Journal) :
    (stage.refresh j).1.isReading = stage.isReading := by
  cases stage with
  | waiting buffer => exact Journal.offer_isReading j buffer
  | ready completion => rfl
  | ended => rfl

/-- The signal of a watch is raised exactly when a completion becomes ready. -/
theorem isReady_refresh (stage : Stage) (j : Journal) :
    (stage.refresh j).1.isReady = (stage.wakes j || stage.isReady) := by
  cases stage with
  | waiting buffer =>
    rw [refresh, Journal.offer_isReady]
    exact (Bool.or_false _).symm
  | ready completion => rfl
  | ended => rfl

end Stage

/-- A directory goes on as its stage does, and raises the signal of the read if the read ends. -/
theorem Directory.settle_stage (d : Directory) (stage : Stage) {name : SignalName}
    (stands : d.slot = stage.slot name) :
    d.settle = ⟨{ d with
      journal := (stage.refresh d.journal).2
      slot := (stage.refresh d.journal).1.slot name }, (),
      if stage.wakes d.journal then some name else none⟩ := by
  obtain ⟨root, filter, j, slot, observation⟩ := d
  obtain rfl : slot = stage.slot name := stands
  cases stage with
  | waiting buffer =>
    cases output : j.hasOutput with
    | true =>
      rw [Directory.settle_of_output rfl output]
      simp only [Stage.refresh, Stage.wakes, Journal.offer_of_output output, output, Stage.slot]
      rfl
    | false =>
      simp only [Directory.settle, Stage.slot, Stage.refresh, Stage.wakes,
        Journal.offer_of_silent output, output]
      rfl
  | ready completion => rfl
  | ended => rfl

namespace Watch

/-! ## What stays -/

/-- Nothing that a watch is set up with has changed, and neither have its links. -/
structure Alike (w w' : Watch) : Prop where
  handle : w'.handle = w.handle
  settings : w'.settings = w.settings
  closed : w'.closed = w.closed
  linked : w'.linked = w.linked

theorem Alike.refl (w : Watch) : w.Alike w := ⟨rfl, rfl, rfl, rfl⟩

theorem Alike.trans {w w' w'' : Watch} (h : w.Alike w') (h' : w'.Alike w'') : w.Alike w'' :=
  ⟨h'.handle.trans h.handle, h'.settings.trans h.settings, h'.closed.trans h.closed,
    h'.linked.trans h.linked⟩

variable {w : Watch}

theorem alike_raise (w : Watch) (raised : Option SignalName) : w.Alike (w.raise raised) := by
  unfold raise
  split <;> exact ⟨rfl, rfl, rfl, rfl⟩

theorem counters_raise (w : Watch) (raised : Option SignalName) :
    (w.raise raised).counters = w.counters := by
  unfold raise
  split <;> rfl

theorem alike_deliver (present : RawPath → Bool) (w : Watch) (delivery : Delivery) :
    w.Alike (w.deliver present delivery) := by
  rw [deliver]
  split
  · exact .refl w
  · next d opened =>
    have recorded : w.Alike { w with directory := some (d.record present delivery).directory } :=
      ⟨rfl, rfl, rfl, rfl⟩
    exact recorded.trans (alike_raise _ _)

theorem counters_deliver (present : RawPath → Bool) (w : Watch) (delivery : Delivery) :
    (w.deliver present delivery).counters = w.counters := by
  rw [deliver]
  split
  · rfl
  · exact counters_raise _ _

theorem alike_endRead (w : Watch) (d : Directory) (completion : Completion) :
    w.Alike (w.endRead d completion) := by
  cases completion <;> exact ⟨rfl, rfl, rfl, rfl⟩

/-! ## Stages -/

/-- The directory of a watch that stands at a stage. -/
def directoryAt (w : Watch) (root : RawPath) (stage : Stage) (j : Journal) : Directory :=
  ⟨root, w.settings.filter, j, stage.slot w.signalName, .observing w.settings.includeSubtree⟩

/-- A watch that has started stands at a stage, with this journal and this signal. -/
structure At (w : Watch) (root : RawPath) (stage : Stage) (j : Journal) (l : Latch) : Prop where
  opened : w.directory = some (w.directoryAt root stage j)
  signal : w.signal = some l
  not_closed : w.closed = false
  /-- The buffer is nowhere but with the directory. -/
  no_buffer : w.buffer = none
  reading : w.readOutstanding = stage.isReading
  sized : stage.Sized w.settings.bufferSize
  sound : j.Sound
  silent : stage.Silent j

variable {root : RawPath} {stage : Stage} {j : Journal} {l : Latch}

theorem At.raise (h : w.At root stage j l) (up : Bool) :
    (w.raise (if up then some w.signalName else none)).At root stage j
      (if up then l.raise else l) := by
  cases up with
  | true =>
    rw [if_pos rfl, if_pos rfl, Watch.raise, if_pos rfl, h.signal, Option.map_some]
    exact { h with signal := rfl }
  | false =>
    rw [Watch.raise, if_neg (by simp)]
    exact h

/-- Whatever the journal holds, a watch whose directory ends its read stands at the stage to which
this leads. -/
theorem at_settle (w : Watch) (root : RawPath) (stage : Stage) (signal : w.signal = some l)
    (not_closed : w.closed = false) (no_buffer : w.buffer = none)
    (reading : w.readOutstanding = stage.isReading)
    (sized : stage.Sized w.settings.bufferSize) (sound : j.Sound) :
    ({ w with directory := some (w.directoryAt root stage j).settle.directory }.raise
        (w.directoryAt root stage j).settle.raised).At root
      (stage.refresh j).1 (stage.refresh j).2 (if stage.wakes j then l.raise else l) := by
  have settled := (w.directoryAt root stage j).settle_stage stage rfl
  have stands : ({ w with directory := some (w.directoryAt root stage j).settle.directory }).At root
      (stage.refresh j).1 (stage.refresh j).2 l := by
    rw [settled]
    exact {
      opened := rfl
      signal
      not_closed
      no_buffer
      reading := reading.trans (Stage.isReading_refresh stage j).symm
      sized := sized.refresh j
      sound := Stage.sound_refresh sound stage
      silent := Stage.silent_refresh stage j }
  have raised : (w.directoryAt root stage j).settle.raised =
      if stage.wakes j then some w.signalName else none := by rw [settled]; rfl
  rw [raised]
  exact stands.raise (stage.wakes j)

/-- A delivery changes the journal, and the stage with it. -/
theorem At.deliver (h : w.At root stage j l) (present : RawPath → Bool) (delivery : Delivery)
    {entered : Journal}
    (enters : ((w.directoryAt root stage j).enter present delivery).journal = entered) :
    (w.deliver present delivery).At root (stage.refresh entered).1 (stage.refresh entered).2
      (if stage.wakes entered then l.raise else l) := by
  have recorded : (w.directoryAt root stage j).record present delivery =
      (w.directoryAt root stage entered).settle := by
    rw [Directory.record, if_neg (by simp [directoryAt]), Directory.enter_eq, enters]
    rfl
  have sound : entered.Sound := by
    rw [← enters]
    exact Directory.enter_sound h.sound
  rw [Watch.deliver, h.opened]
  simp only [recorded]
  exact at_settle w root stage h.signal h.not_closed h.no_buffer h.reading h.sized sound

/-- Whoever consumes the signal leaves the stage alone. -/
theorem At.consume (h : w.At root stage j l) : w.consumeSignal.At root stage j .down := by
  refine { h with signal := ?_ }
  rw [consumeSignal, h.signal]
  rfl

/-! ## Asking for a read -/

/-- The buffer that a watch gives to the read that it asks for. -/
def nextBuffer (w : Watch) : Buffer := w.buffer.getD (Array.replicate w.settings.bufferSize 0)

/-- A watch that is open asks its directory for a read. -/
theorem initiateRead_eq {d : Directory} (signal : w.signal = some l)
    (opened : w.directory = some d) (host : Host) :
    w.initiateRead host =
      match d.read host w.nextBuffer w.settings.includeSubtree w.settings.filter w.signalName with
      | (⟨d', .ok (), raised⟩, host') =>
        (.ok (), { w with
          directory := some d'
          buffer := none
          readOutstanding := true
          counters := w.counters.issue }.raise raised, host')
      | (⟨d', .error e, _⟩, host') =>
        (.error e, { w with
          directory := some d'
          buffer := none
          readOutstanding := false
          counters := w.counters.issue.finish false }, host') := by
  rw [initiateRead, signal, opened]
  simp only
  rw [show w.buffer.getD (Array.replicate w.settings.bufferSize 0) = w.nextBuffer from rfl]
  generalize d.read host w.nextBuffer _ _ _ = outcome
  obtain ⟨⟨d', answer, raised⟩, host'⟩ := outcome
  cases answer <;> rfl

theorem initiateRead_accepted {host host' : Host} {d d' : Directory} {raised : Option SignalName}
    (signal : w.signal = some l) (opened : w.directory = some d)
    (read : d.read host w.nextBuffer w.settings.includeSubtree w.settings.filter w.signalName =
      (⟨d', .ok (), raised⟩, host')) :
    w.initiateRead host = (.ok (), { w with
      directory := some d'
      buffer := none
      readOutstanding := true
      counters := w.counters.issue }.raise raised, host') := by
  rw [initiateRead_eq signal opened, read]

theorem initiateRead_refused {host host' : Host} {d d' : Directory} {e : IoError}
    (signal : w.signal = some l) (opened : w.directory = some d)
    (read : d.read host w.nextBuffer w.settings.includeSubtree w.settings.filter w.signalName =
      (⟨d', .error e, none⟩, host')) :
    w.initiateRead host = (.error e, { w with
      directory := some d'
      buffer := none
      readOutstanding := false
      counters := w.counters.issue.finish false }, host') := by
  rw [initiateRead_eq signal opened, read]

/-- Where a watch stands whose directory takes a read. -/
structure Asked (w : Watch) (root : RawPath) (j : Journal) (l : Latch) (w' : Watch) : Prop where
  stands : w'.At root (j.offer w.nextBuffer).1 (j.offer w.nextBuffer).2
    (if j.hasOutput then l.raise else l)
  alike : w.Alike w'
  counters : w'.counters = w.counters.issue

theorem Asked.reading {w' : Watch} (h : w.Asked root j l w') : w'.readOutstanding = true :=
  h.stands.reading.trans (Journal.offer_isReading j w.nextBuffer)

/-- A directory that takes a read ends it at once, if it has something to tell. -/
theorem initiateRead_asked {host host' : Host} {d : Directory} (signal : w.signal = some l)
    (opened : w.directory = some d)
    (read : d.read host w.nextBuffer w.settings.includeSubtree w.settings.filter w.signalName =
      (⟨(w.directoryAt root (.waiting w.nextBuffer) j).settle.directory, .ok (),
        (w.directoryAt root (.waiting w.nextBuffer) j).settle.raised⟩, host'))
    (not_closed : w.closed = false) (sized : w.nextBuffer.size = w.settings.bufferSize)
    (sound : j.Sound) :
    ∃ w', w.initiateRead host = (.ok (), w', host') ∧ w.Asked root j l w' := by
  let asked : Watch := { w with
    buffer := none, readOutstanding := true, counters := w.counters.issue }
  let settled := (asked.directoryAt root (.waiting w.nextBuffer) j).settle
  have stands := at_settle asked root (.waiting w.nextBuffer) signal not_closed rfl rfl sized sound
  have alike : w.Alike { asked with directory := some settled.directory } := ⟨rfl, rfl, rfl, rfl⟩
  refine ⟨{ asked with directory := some settled.directory }.raise settled.raised, ?_, stands,
    alike.trans (alike_raise _ _), counters_raise _ _⟩
  exact initiateRead_accepted signal opened read

/-- A watch whose reads stand still takes a read again. -/
theorem initiateRead_again (host : Host) (signal : w.signal = some l)
    (opened : w.directory = some (w.directoryAt root .ended j)) (not_closed : w.closed = false)
    (sized : w.nextBuffer.size = w.settings.bufferSize) (sound : j.Sound) :
    ∃ w', w.initiateRead host = (.ok (), w', host) ∧ w.Asked root j l w' := by
  refine initiateRead_asked signal opened ?_ not_closed sized sound
  exact Directory.read_observing rfl rfl

/-! ## The callback of the worker -/

/-- Without a completion that is ready, the callback does nothing. -/
theorem At.callBack_none (h : w.At root stage j l) (none_ready : stage.isReady = false)
    (host : Host) : w.onReadComplete host = ([], w, host) := by
  rw [onReadComplete, h.opened]
  cases stage with
  | waiting buffer => rfl
  | ready completion => simp [Stage.isReady] at none_ready
  | ended => rfl

/-- A read that has failed is reported and is the last one. -/
theorem At.callBack_failed {e : IoError} (h : w.At root (.ready (.failed e)) j l) (host : Host) :
    ∃ w', w.onReadComplete host = (w.report (.failure e), w', host) ∧ w'.At root .ended j l ∧
      w.Alike w' ∧ w'.counters = w.counters.finish false := by
  refine ⟨w.endRead (w.directoryAt root .ended j) (.failed e), ?_, ?_, ⟨rfl, rfl, rfl, rfl⟩, rfl⟩
  · rw [onReadComplete, h.opened]
    rfl
  · exact {
      opened := rfl
      signal := h.signal
      not_closed := h.not_closed
      no_buffer := h.no_buffer
      reading := rfl
      sized := trivial
      sound := h.sound
      silent := trivial }

/-- What is left of a watch between two reads: the one that has ended is counted, and its buffer is
at hand for the next. -/
structure BetweenReads (w : Watch) (buffer : Buffer) (between : Watch) : Prop where
  alike : w.Alike between
  at_hand : between.buffer = some buffer
  idle : between.readOutstanding = false
  counters : between.counters = w.counters.finish true

theorem betweenReads_endRead (w : Watch) (d : Directory) (buffer : Buffer) (bytes : Nat) :
    w.BetweenReads buffer (w.endRead d (.done buffer bytes)) :=
  ⟨alike_endRead w d _, rfl, rfl, rfl⟩

theorem BetweenReads.nextBuffer {buffer : Buffer} {between : Watch}
    (h : w.BetweenReads buffer between) : between.nextBuffer = buffer := by
  rw [Watch.nextBuffer, h.at_hand]
  rfl

/-- What a read has found is reported as far as the patterns admit it, and the next read is asked
for with the same buffer. -/
theorem At.callBack_done {buffer : Buffer} {bytes : Nat}
    (h : w.At root (.ready (.done buffer bytes)) j l) (host : Host) :
    ∃ w', w.onReadComplete host =
        (w.report (.changes (Record.decodeFiltered buffer bytes w.settings.patterns)), w', host) ∧
      (w.endRead (w.directoryAt root .ended j) (.done buffer bytes)).Asked root j l w' := by
  have sized : buffer.size = w.settings.bufferSize := h.sized
  let ended := w.endRead (w.directoryAt root .ended j) (.done buffer bytes)
  obtain ⟨w', next, asked⟩ := initiateRead_again (w := ended) host h.signal rfl
    h.not_closed sized h.sound
  refine ⟨w', ?_, asked⟩
  have open_still : ended.closed = false := h.not_closed
  have taken : (w.directoryAt root (.ready (.done buffer bytes)) j).take =
      (some (.done buffer bytes), w.directoryAt root .ended j) := rfl
  rw [onReadComplete, h.opened]
  simp only [taken]
  rw [show w.endRead (w.directoryAt root .ended j) (.done buffer bytes) = ended from rfl,
    if_neg (by simp [open_still]), next]
  rfl

/-- The callback leaves the host alone. -/
theorem At.callBack_host (h : w.At root stage j l) (host : Host) :
    (w.onReadComplete host).2.2 = host := by
  match stage, h with
  | .ready (.failed e), h =>
    obtain ⟨w', called, -⟩ := h.callBack_failed host
    rw [called]
  | .ready (.done buffer bytes), h =>
    obtain ⟨w', called, -⟩ := h.callBack_done host
    rw [called]
  | .waiting buffer, h => rw [h.callBack_none rfl host]
  | .ended, h => rw [h.callBack_none rfl host]

theorem At.work_host (h : w.At root stage j l) (host : Host) : (w.work host).2.2 = host := by
  rw [Watch.work]
  split
  · exact h.consume.callBack_host host
  · rfl

end Watch

end DirWatch
