import DirWatch.Proofs.Watch.Ledger

/-!
# What holds of an active watch

`Account.Holds` is the invariant of an active watch: at which stage its reads stand, how its signal,
its reports, its counters, its requests and its ledger agree with that. Each thing that can happen
keeps it (`Account.Holds.deliver`, `Account.Holds.callBack`, `Account.Holds.work`,
`Account.Holds.dispatch`), so it holds of every account that can arise (`Account.Lived.holds`).
-/

namespace DirWatch.Account

def Failed (a : Account) : Prop := ∃ e, Payload.failure e ∈ a.sent

/-- What holds of an active watch whose reads stand at this stage. -/
structure Holds (loose : Bool) (a : Account) (root : RawPath) (stage : Stage) (j : Journal)
    (l : Latch) : Prop where
  stands : a.watch.At root stage j l
  linked : a.watch.linked = true
  /-- The signal is up exactly when a completion is ready. -/
  signalled : loose = false → l.isUp = stage.isReady
  /-- Reads go on until an error has been reported. -/
  reading : stage.isReading = false ↔ a.Failed
  counted : a.watch.Counted
  /-- Each request has been counted. -/
  issued : a.requests.length = a.watch.counters.issued
  /-- One of them found no buffer, and one was made for it. -/
  made : (a.requests.filter fun w => w.buffer.isNone).length = 1
  ledger : a.watch.settings.bufferSize < UInt32.size → a.Undisturbed → a.Ledger root stage j

variable {loose : Bool} {a : Account} {root : RawPath} {stage : Stage} {j : Journal} {l : Latch}

theorem holds_opening {settings : WatchSettings} {host : Host} {w : Watch}
    (started : Watch.Started settings host root w) :
    ∃ stage j l, (opening settings host w).Holds loose root stage j l := by
  obtain ⟨j, buffer, l, first, sized, stands, signalled⟩ := started.stands
  have not_failed : ¬ (opening settings host w).Failed := fun ⟨e, he⟩ => by simp [opening] at he
  have requests : (opening settings host w).requests =
      [Watch.opening ⟨host.nextHandle⟩ settings root] := by
    rw [opening, started.request]
  refine ⟨_, _, l, {
    stands
    linked := started.linked
    signalled := fun _ => signalled
    reading := ?_
    counted := ?_
    issued := ?_
    made := ?_
    ledger := ?_ }⟩
  · rw [Journal.offer_isReading]
    exact ⟨fun h => by simp at h, fun failed => absurd failed not_failed⟩
  · exact (Watch.counted_opening ⟨host.nextHandle⟩ settings root).issue rfl started.counters
      (stands.reading.trans (Journal.offer_isReading j buffer))
  · rw [requests]
    exact (congrArg Counters.issued started.counters).symm
  · rw [requests]
    rfl
  · intro small undisturbed
    have same : (opening settings host w).watch.settings = settings := started.same_settings
    rw [same] at small
    exact ledger_opening started small undisturbed sized first

/-- A delivery enters the journal, and a read that waits for it ends. -/
theorem Holds.deliver (h : a.Holds loose root stage j l) (present : RawPath → Bool)
    (delivery : Delivery) :
    ∃ stage' j' l', (a.deliver present delivery).Holds loose root stage' j' l' := by
  obtain ⟨entered, enters⟩ :
      ∃ entered, ((a.watch.directoryAt root stage j).enter present delivery).journal = entered :=
    ⟨_, rfl⟩
  have stands := h.stands.deliver present delivery enters
  have counters := Watch.counters_deliver present a.watch delivery
  have alike := Watch.alike_deliver present a.watch delivery
  refine ⟨_, _, _, {
    stands
    linked := alike.linked.trans h.linked
    signalled := ?_
    reading := ?_
    counted := ?_
    issued := ?_
    made := h.made
    ledger := ?_ }⟩
  · intro strict
    rw [Stage.isReady_refresh, ← h.signalled strict]
    cases stage.wakes entered <;> rfl
  · rw [Stage.isReading_refresh]
    exact h.reading
  · refine h.counted.congr counters ?_
    rw [h.stands.reading, ← Stage.isReading_refresh stage entered]
    exact stands.reading
  · rw [show (a.deliver present delivery).watch.counters = a.watch.counters from counters]
    exact h.issued
  · intro small
    rw [show (a.deliver present delivery).watch.settings = a.watch.settings from alike.settings]
      at small
    exact Ledger.deliver (h.ledger small) h.stands small enters

/-- Dispatch changes nothing but where reports are. -/
theorem Holds.dispatch (h : a.Holds loose root stage j l) :
    a.dispatch.Holds loose root stage j l where
  stands := h.stands
  linked := h.linked
  signalled := h.signalled
  reading := h.reading
  counted := h.counted
  issued := h.issued
  made := h.made
  ledger small undisturbed := by
    obtain ⟨kept, balance⟩ := h.ledger small undisturbed
    refine ⟨kept, ?_⟩
    rw [told_dispatch]
    exact balance

/-! ## The callback -/

/-- Whatever the signal is, it agrees with the stage if it need not. -/
theorem Holds.loosen (h : a.Holds loose root stage j l) : a.Holds true root stage j l :=
  { h with signalled := fun strict => by simp at strict }

theorem Holds.callBack_none (h : a.Holds loose root stage j l) (none_ready : stage.isReady = false)
    (host : Host) : a.callBack host = a := by
  have idle := h.stands.callBack_none none_ready host
  have none_asked : a.watch.nextRequest = [] := by
    rw [h.stands.nextRequest]
    cases stage with
    | waiting buffer => rfl
    | ready completion => simp [Stage.isReady] at none_ready
    | ended => rfl
  simp only [Account.callBack, idle, none_asked, List.append_nil]

/-- A read that failed is reported, and the reads end. -/
theorem Holds.callBack_failed {e : IoError} (h : a.Holds true root (.ready (.failed e)) j l)
    (down : loose = false → l.isUp = false) (host : Host) :
    (a.callBack host).Holds loose root .ended j l := by
  obtain ⟨w', called, stands, alike, counters⟩ := h.stands.callBack_failed host
  have report : a.watch.report (.failure e) = [Payload.failure e] := if_pos h.linked
  have none_asked : a.watch.nextRequest = [] := h.stands.nextRequest
  rw [report] at called
  have next : a.callBack host = { a with
      watch := w'
      sent := a.sent ++ [.failure e]
      queued := a.queued ++ [.failure e] } := by
    simp only [Account.callBack, called, none_asked, List.append_nil]
  have told : (a.callBack host).told = a.told := by
    rw [told_callBack, called]
    exact List.append_nil _
  rw [next] at told ⊢
  exact {
    stands
    linked := alike.linked.trans h.linked
    signalled := down
    reading := ⟨fun _ => ⟨e, List.mem_append_right _ List.mem_cons_self⟩, fun _ => rfl⟩
    counted := h.counted.finish h.stands.reading counters stands.reading
    issued := h.issued.trans (congrArg Counters.issued counters).symm
    made := h.made
    ledger := fun small undisturbed =>
      (h.ledger (alike.settings ▸ small) undisturbed).callBack_failed alike.settings rfl told }

/-- What a read has found is reported, and the next read is asked for as the watch stands between
the two. -/
theorem Holds.callBack_done_eq {buffer : Buffer} {bytes : Nat}
    (h : a.Holds loose root (.ready (.done buffer bytes)) j l) (host : Host) {found : List Change}
    (decoded : Record.decodeFiltered buffer bytes a.watch.settings.patterns = found) :
    ∃ between w', a.watch.BetweenReads buffer between ∧ between.Asked root j l w' ∧
      a.callBack host = { a with
        watch := w'
        sent := a.sent ++ [.changes found]
        queued := a.queued ++ [.changes found]
        requests := a.requests ++ [between] } := by
  obtain ⟨w', called, asked⟩ := h.stands.callBack_done host
  have report : a.watch.report (.changes found) = [Payload.changes found] := if_pos h.linked
  rw [decoded, report] at called
  refine ⟨_, w', a.watch.betweenReads_endRead _ buffer bytes, asked, ?_⟩
  simp only [Account.callBack, called, h.stands.nextRequest]

/-- The end of a read leads to the stage of the next one. -/
theorem Holds.callBack_done {buffer : Buffer} {bytes : Nat}
    (h : a.Holds true root (.ready (.done buffer bytes)) j l)
    (down : loose = false → l.isUp = false) (host : Host) :
    ∃ stage' j' l', (a.callBack host).Holds loose root stage' j' l' := by
  obtain ⟨between, w', ended, asked, next⟩ := h.callBack_done_eq host rfl
  have stands := asked.stands
  rw [ended.nextBuffer] at stands
  have alike : a.watch.Alike w' := ended.alike.trans asked.alike
  -- the counters are settled for the read that has ended before the next one is counted
  have ended_counted : between.Counted :=
    h.counted.finish h.stands.reading ended.counters ended.idle
  have not_failed : ¬ a.Failed := fun failed => by
    have := h.reading.mpr failed
    simp [Stage.isReading] at this
  rw [next]
  refine ⟨_, _, _, {
    stands
    linked := alike.linked.trans h.linked
    signalled := ?_
    reading := ?_
    counted := ended_counted.issue ended.idle asked.counters asked.reading
    issued := ?_
    made := ?_
    ledger := ?_ }⟩
  · intro strict
    rw [Journal.offer_isReady]
    cases j.hasOutput with
    | true => rfl
    | false => exact down strict
  · rw [Journal.offer_isReading]
    constructor
    · intro stopped
      simp at stopped
    · rintro ⟨e, he⟩
      exact absurd ⟨e, by simpa using he⟩ not_failed
  · have counted : w'.counters.issued = a.watch.counters.issued + 1 := by
      rw [asked.counters, ended.counters]
      rfl
    rw [List.length_append, h.issued]
    exact counted.symm
  · rw [List.filter_append, List.length_append, h.made]
    simp [ended.at_hand]
  · intro small undisturbed
    have same : w'.settings = a.watch.settings := alike.settings
    have before := h.ledger (same ▸ small) undisturbed
    refine before.callBack_done h.stands.sound h.stands.sized (same ▸ small) same rfl ?_
    simp only [told, List.flatMap_append, List.append_assoc, List.flatMap_singleton]
    rfl

/-- The callback does what the stage asks for, and leaves the signal as the stage says, if it was
down before. -/
theorem Holds.callBack (h : a.Holds true root stage j l) (down : loose = false → l.isUp = false)
    (host : Host) : ∃ stage' j' l', (a.callBack host).Holds loose root stage' j' l' := by
  match stage, h with
  | .ready (.failed e), h => exact ⟨_, _, _, h.callBack_failed down host⟩
  | .ready (.done buffer bytes), h => exact h.callBack_done down host
  | .waiting buffer, h =>
    rw [h.callBack_none rfl]
    exact ⟨_, _, _, { h with signalled := down }⟩
  | .ended, h =>
    rw [h.callBack_none rfl]
    exact ⟨_, _, _, { h with signalled := down }⟩

/-- The worker takes the signal down before its callback runs. -/
theorem Holds.work (h : a.Holds loose root stage j l) (host : Host) :
    ∃ stage' j' l', (a.work host).Holds loose root stage' j' l' := by
  rw [Account.work]
  split
  · -- in between, the signal is down beside a completion: hence the loose invariant
    have consumed : ({ a with watch := a.watch.consumeSignal } : Account).Holds true root stage j
        .down := {
      h.loosen with
      stands := h.stands.consume
      signalled := fun strict => by simp at strict
      counted := h.counted.congr rfl rfl
      ledger := fun small undisturbed =>
        ⟨(h.ledger small undisturbed).kept, (h.ledger small undisturbed).balance⟩ }
    exact consumed.callBack (fun _ => rfl) host
  · exact ⟨stage, j, l, h⟩

/-- The invariant holds as long as the watch is active. -/
theorem Lived.holds (h : Lived loose a) : ∃ root stage j l, a.Holds loose root stage j l := by
  induction h with
  | opening set_up =>
    obtain ⟨root, started⟩ := Watch.started_of_setUp set_up
    exact ⟨root, holds_opening started⟩
  | deliver _ present delivery ih =>
    obtain ⟨root, stage, j, l, holds⟩ := ih
    exact ⟨root, holds.deliver present delivery⟩
  | work _ host ih =>
    obtain ⟨root, stage, j, l, holds⟩ := ih
    exact ⟨root, holds.work host⟩
  | callBack may _ host ih =>
    obtain ⟨root, stage, j, l, holds⟩ := ih
    exact ⟨root, holds.loosen.callBack (fun strict => by simp [may] at strict) host⟩
  | dispatch _ ih =>
    obtain ⟨root, stage, j, l, holds⟩ := ih
    exact ⟨root, stage, j, l, holds.dispatch⟩

end DirWatch.Account
