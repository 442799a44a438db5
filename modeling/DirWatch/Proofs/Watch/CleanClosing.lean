import DirWatch.Proofs.Watch.Running

/-!
# Closing is clean

A watch is closed in two steps: it is marked, and then, when its worker has ended, it gives up what
it holds. In between its worker and the backend may still do what they do. `Watch.closing_is_clean`
says that none of it matters: from wherever the watch stood, nothing is left of it, its counters are
settled, and the read that is waited for has raised its signal already.
-/

namespace DirWatch.Watch

variable {w : Watch} {d : Directory} {l : Latch}

/-! ## After the mark -/

theorem length_report_le (w : Watch) (payload : Payload) : (w.report payload).length ≤ 1 := by
  rw [report]
  split
  · exact Nat.le_refl 1
  · exact Nat.zero_le 1

/-- The callback of a watch that is marked closed asks for no read. Each report takes a read that is
under way. -/
theorem Agrees.callBack_closed (h : w.Agrees d l) (closed : w.closed = true) (host : Host) :
    (w.onReadComplete host).2.1.counters.issued = w.counters.issued ∧
      (w.onReadComplete host).1.length + (w.onReadComplete host).2.1.counters.outstanding ≤
        w.counters.outstanding := by
  -- a read whose completion is taken was under way, so that its end makes up for the report
  have ends : ∀ {completion}, d.slot = .finished completion → ∀ payload : Payload,
      (w.report payload).length + (w.counters.outstanding - 1) ≤ w.counters.outstanding := by
    intro completion finished payload
    have reading : w.readOutstanding = true := h.under_way.mpr (by simp [finished])
    have one_out : w.counters.outstanding = 1 := by
      rw [h.counted.outstanding, reading]
      rfl
    have one_report := w.length_report_le payload
    omega
  have happens := called h.opened host
  generalize w.onReadComplete host = outcome at happens ⊢
  cases happens with
  | idle unfinished => exact ⟨rfl, by simp⟩
  | failed finished => exact ⟨rfl, ends finished _⟩
  | closing finished _ => exact ⟨rfl, ends finished _⟩
  | again finished not_closed asks => simp [closed] at not_closed
  | refused finished not_closed asks => simp [closed] at not_closed

theorem counters_sever (w : Watch) : w.sever.counters = w.counters := by
  rw [sever]
  split
  · rfl
  · exact counters_raise _ _

/-- Whatever happens to a watch that is marked closed, it asks for no read, and each report takes a
read that is under way. -/
theorem Alert.happen_closed (h : w.Alert d l) (closed : w.closed = true) (x : Happening) :
    (w.happen x).2.counters.issued = w.counters.issued ∧
      (w.happen x).1.length + (w.happen x).2.counters.outstanding ≤ w.counters.outstanding := by
  cases x with
  | deliver present delivery =>
    have same : (w.deliver present delivery).counters = w.counters :=
      counters_deliver present w delivery
    simp [Watch.happen, same]
  | work host =>
    show (w.work host).2.1.counters.issued = w.counters.issued ∧
      (w.work host).1.length + (w.work host).2.1.counters.outstanding ≤ w.counters.outstanding
    rw [Watch.work]
    split
    · exact h.toAgrees.consume.callBack_closed closed host
    · exact ⟨rfl, by simp⟩
  | callBack host => exact h.toAgrees.callBack_closed closed host
  | sever => simp [Watch.happen, counters_sever]

/-- The same of all that happens in a row; the signal goes on to be up when a completion waits. -/
theorem Alert.undergo_closed (h : w.Alert d l) (closed : w.closed = true)
    (between : List Happening) :
    (∃ d' l', (w.undergo between).2.Alert d' l') ∧ (w.undergo between).2.closed = true ∧
      (w.undergo between).2.counters.issued = w.counters.issued ∧
      (w.undergo between).1.length + (w.undergo between).2.counters.outstanding ≤
        w.counters.outstanding := by
  induction between generalizing w d l with
  | nil => exact ⟨⟨d, l, h⟩, closed, rfl, by simp [undergo]⟩
  | cons x rest ih =>
    obtain ⟨issued_here, bound_here⟩ := h.happen_closed closed x
    have still_closed : (w.happen x).2.closed = true := (alike_happen w x).closed.trans closed
    obtain ⟨d', l', here⟩ := h.happen x
    obtain ⟨alert, closed_then, issued, bound⟩ := ih here still_closed
    refine ⟨alert, closed_then, issued.trans issued_here, ?_⟩
    show ((w.happen x).1 ++ ((w.happen x).2.undergo rest).1).length +
      ((w.happen x).2.undergo rest).2.counters.outstanding ≤ w.counters.outstanding
    rw [List.length_append]
    omega

/-! ## The last part -/

/-- Closing the directory at last is closing it under a watch that nobody listens to any more. -/
theorem closeDirectory_eq_sever (w : Watch) :
    w.closeDirectory = ({ w with registered := false, linked := false } : Watch).sever := by
  cases opened : w.directory with
  | none => simp only [closeDirectory, sever, opened]
  | some d => simp only [closeDirectory, sever, opened]

/-- A read under way has raised the signal when its watch waits for it. -/
theorem Alert.isSignaled_closeDirectory (h : w.Alert d l) (reading : w.readOutstanding = true) :
    w.closeDirectory.isSignaled = true := by
  have alone : ({ w with registered := false, linked := false } : Watch).Alert d l :=
    ⟨h.toAgrees.congr rfl rfl rfl rfl rfl, h.up⟩
  obtain ⟨l', severed⟩ := alone.sever
  rw [← closeDirectory_eq_sever] at severed
  have still_reading : w.closeDirectory.readOutstanding = true :=
    (alike_closeDirectory w).2.2.1.trans reading
  have up : l'.isUp = true := by
    cases slot : d.close.directory.slot with
    | idle => exact absurd slot (severed.under_way.mp still_reading)
    | armed buffer name =>
      -- the directory is closed, so that no read of it waits
      exact absurd d.observation_close (severed.armed buffer name slot).2
    | finished completion => exact severed.up completion slot
  rw [isSignaled, severed.signal]
  exact up

theorem Shut.happen (h : w.Shut) (x : Happening) : w.happen x = ([], w) := by
  cases x with
  | deliver present delivery => rw [Watch.happen, h.deliver]
  | work host => rw [Watch.happen, h.work]
  | callBack host => rw [Watch.happen, h.callBack]
  | sever => rw [Watch.happen, Watch.sever, h.directory]

/-- Nothing that happens to a watch that is shut changes it or makes it report anything. -/
theorem Shut.undergo (h : w.Shut) (later : List Happening) : w.undergo later = ([], w) := by
  induction later with
  | nil => rfl
  | cons x rest ih => rw [Watch.undergo, h.happen, ih, List.append_nil]

/-! ## Closing -/

/-- Closes a watch to which something happens after it is marked. -/
def closeAfter (w : Watch) (between : List Happening) : Closing :=
  (w.markClosed.undergo between).2.finishClosing

/-- How a watch closes to which something happens after it is marked. -/
structure ClosesCleanly (w : Watch) (between : List Happening) : Prop where
  /-- It holds no directory, signal, buffer, worker or link any more, and no read is under way. -/
  shut : (w.closeAfter between).watch.Shut
  settled : (w.closeAfter between).watch.counters.outstanding = 0 ∧
    (w.closeAfter between).watch.counters.issued =
      (w.closeAfter between).watch.counters.completed +
        (w.closeAfter between).watch.counters.failed
  /-- No read was asked for after the mark. -/
  no_request : (w.closeAfter between).watch.counters.issued = w.counters.issued
  one_report : (w.markClosed.undergo between).1.length ≤ 1
  /-- A read is waited for if one is under way, and the signal is up then. -/
  never_waits : (w.closeAfter between).signaled =
    if (w.markClosed.undergo between).2.readOutstanding then some true else none
  silent : ∀ later, (w.closeAfter between).watch.undergo later = ([], (w.closeAfter between).watch)
  /-- The call that closes the watch is the only one that says so, and the only one that does
  anything. -/
  once : w.closeOnce = (true, (w.closeAfter []).watch) ∧
    (w.closeAfter between).watch.closeOnce = (false, (w.closeAfter between).watch)

/-- When nothing happens in between, closing is one step. -/
theorem closeAfter_nil (not_closed : w.closed = false) : (w.closeAfter []).watch = w.close :=
  (close_of_open not_closed).symm

/-- From wherever a watch that runs may stand, and whatever its worker and the backend do after it
has been marked closed, closing is clean. -/
theorem closing_is_clean (running : w.Running) (between : List Happening) :
    w.ClosesCleanly between := by
  obtain ⟨not_closed, d, l, alert⟩ := running.alert
  obtain ⟨⟨d', l', then_alert⟩, closed, issued, bound⟩ :=
    alert.markClosed.undergo_closed rfl between
  obtain ⟨-, shut, waits, idle⟩ := finishClosing_spec closed
  have counted := then_alert.counted.finishClosing closed
  have at_most_one : w.counters.outstanding ≤ 1 := by
    rw [alert.counted.outstanding]
    split <;> omega
  refine {
    shut
    settled := counted.settled shut.idle
    no_request := ?_
    one_report := ?_
    never_waits := ?_
    silent := shut.undergo
    once := ⟨?_, ?_⟩ }
  · show (w.markClosed.undergo between).2.finishClosing.watch.counters.issued = w.counters.issued
    cases reading : (w.markClosed.undergo between).2.readOutstanding with
    | true =>
      obtain ⟨-, ok, counters⟩ := waits reading
      rw [counters, Counters.issued_finish]
      exact issued
    | false =>
      rw [(idle reading).2]
      exact issued
  · have bound : (w.markClosed.undergo between).1.length +
        (w.markClosed.undergo between).2.counters.outstanding ≤ w.counters.outstanding := bound
    omega
  · cases reading : (w.markClosed.undergo between).2.readOutstanding with
    | true =>
      have waited := (waits reading).1
      rw [then_alert.isSignaled_closeDirectory reading] at waited
      exact waited
    | false => exact (idle reading).1
  · rw [closeOnce, closeAfter_nil not_closed, not_closed]
    rfl
  · have same : (w.closeAfter between).watch.close = (w.closeAfter between).watch := shut.close
    have closed_then : (w.closeAfter between).watch.closed = true := shut.closed
    rw [closeOnce, same, closed_then]
    rfl

/-- A watch of the root of an empty file system. -/
def ofEmptyRoot : Watch :=
  ((unstarted ⟨1⟩ (settingsFor { bufferSize := 16 } "/" true .standard [])).start
    { tree := ⟨[], []⟩ }).2.1

/-- The backend says that a file is created in the root of the file system. -/
def fileCreated (name : RawPath) : Happening :=
  .deliver (fun _ => true) (.ok ⟨.create .file, [RawPath.slash :: name], false⟩)

/-- The worker of a watch that is marked closed still reports the file that it knows of; the next
one is of no interest any more. -/
theorem closing_is_clean_oneFile :
    (ofEmptyRoot.happen (fileCreated [97])).2.Running ∧
      (ofEmptyRoot.happen (fileCreated [97])).2.ClosesCleanly
        [.work { tree := ⟨[], []⟩ }, fileCreated [98]] ∧
      ((ofEmptyRoot.happen (fileCreated [97])).2.markClosed.undergo
        [.work { tree := ⟨[], []⟩ }, fileCreated [98]]).1 = [.changes [⟨.added, "a"⟩]] := by
  have started : (unstarted ⟨1⟩ (settingsFor { bufferSize := 16 } "/" true .standard [])).start
      { tree := ⟨[], []⟩ } = (.ok (), ofEmptyRoot, { tree := ⟨[], []⟩ }) := by
    with_unfolding_all rfl
  have running := (Running.started started).happen (fileCreated [97])
  exact ⟨running, closing_is_clean running _, by decide +kernel⟩

end DirWatch.Watch
