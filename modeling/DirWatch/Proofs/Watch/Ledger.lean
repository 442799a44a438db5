import DirWatch.Proofs.Watch.Account

/-!
# What becomes of the changes of a watch

As long as the journal of a watch gives up nothing, each change that arrives and that the watch is
to report is, in this order, reported, held by a completion that is ready, or waiting in the journal
(`Account.Ledger`). The heart of it is `Journal.offer_conserves`: a read moves changes from the
journal to its completion, and gives up only those that are larger than the buffer.
-/

namespace DirWatch

/-- The changes that a watch is to report: their records fit into its buffer and its patterns admit
their names. -/
def WatchSettings.reports (s : WatchSettings) (c : Change) : Bool :=
  c.recordSize ≤ s.bufferSize && s.patterns.admits c.path

/-- The changes that a completion which is ready will have reported. -/
def Stage.held (patterns : Patterns) : Stage → List Change
  | ready (.done buffer bytes) => Record.decodeFiltered buffer bytes patterns
  | _ => []

variable {s : WatchSettings} {j : Journal} {buffer : Buffer}

theorem Stage.held_ready (patterns : Patterns) (completion : Completion) :
    (ready completion).held patterns =
      completion.changes.filter fun c => patterns.admits c.path := by
  cases completion with
  | done buffer bytes => exact Record.decodeFiltered_eq_filter buffer bytes patterns
  | failed e => rfl

theorem WatchSettings.reports_oversized (s : WatchSettings) (pending : List Change) :
    (Journal.oversized s.bufferSize pending).filter s.reports = [] := by
  rw [List.filter_eq_nil_iff]
  intro c hc
  have large := Journal.lt_recordSize_of_mem_oversized hc
  simp only [reports, Bool.and_eq_true, decide_eq_true_eq]
  omega

/-- Of the changes that are handed out, those are to be reported that the patterns admit. -/
theorem WatchSettings.reports_handed (s : WatchSettings) (pending : List Change) :
    (Journal.handed s.bufferSize pending).filter s.reports =
      (Journal.handed s.bufferSize pending).filter fun c => s.patterns.admits c.path := by
  refine List.filter_congr fun c hc => ?_
  have fits := Journal.recordSize_le_of_mem_within hc
  simp only [reports, fits, decide_true, Bool.true_and]

/-- A read takes nothing away from what is to be reported, and changes nothing of it. -/
theorem Journal.offer_conserves (sound : j.Sound) (kept : j.overflowed = false)
    (sized : buffer.size = s.bufferSize) (small : s.bufferSize < UInt32.size) :
    (j.offer buffer).2.overflowed = false ∧
      (j.offer buffer).1.held s.patterns ++ (j.offer buffer).2.pending.filter s.reports =
        j.pending.filter s.reports := by
  cases output : j.hasOutput with
  | false =>
    rw [offer_of_silent output]
    exact ⟨kept, rfl⟩
  | true =>
    obtain ⟨content, left, -, -⟩ := sound.complete_parts buffer (sized ▸ small)
    rw [offer_of_output output]
    refine ⟨(complete_pending_suffix j buffer).2, ?_⟩
    -- of the three parts of what waits, the one that is given up is not to be reported anyway
    rw [Stage.held_ready, content, left, sized, ← WatchSettings.reports_handed]
    conv => rhs; rw [parts s.bufferSize j.pending]
    rw [List.filter_append, List.filter_append, WatchSettings.reports_oversized, List.nil_append]

/-- The same of a change of the journal at any stage. -/
theorem Stage.refresh_conserves {stage : Stage} (sound : j.Sound) (kept : j.overflowed = false)
    (sized : stage.Sized s.bufferSize) (small : s.bufferSize < UInt32.size) :
    (stage.refresh j).2.overflowed = false ∧
      (stage.refresh j).1.held s.patterns ++ (stage.refresh j).2.pending.filter s.reports =
        stage.held s.patterns ++ j.pending.filter s.reports := by
  cases stage with
  | waiting buffer => exact Journal.offer_conserves sound kept sized small
  | ready completion => exact ⟨kept, rfl⟩
  | ended => exact ⟨kept, rfl⟩

namespace Account

/-- Where the changes are that a watch is to report: each one that arrived has been told, is held by
a completion or waits, in this order. -/
structure Ledger (a : Account) (root : RawPath) (stage : Stage) (j : Journal) : Prop where
  kept : j.overflowed = false
  balance : a.told ++ stage.held a.watch.settings.patterns ++
      j.pending.filter a.watch.settings.reports =
    (a.arrived root).filter a.watch.settings.reports

variable {a : Account} {root : RawPath} {stage : Stage} {l : Latch}

/-- What is delivered to a watch that stands at a stage. -/
theorem arrival_at {w : Watch} (h : w.At root stage j l) (present : RawPath → Bool)
    (delivery : Delivery) :
    w.arrival present [delivery] = [⟨present, [delivery],
      ((w.directoryAt root stage j).enter present delivery).journal.overflowed⟩] := by
  rw [Watch.arrival, h.opened]
  rfl

/-- The balance of a watch that has just been set up. -/
theorem ledger_opening {settings : WatchSettings} {host : Host} {w : Watch}
    (started : Watch.Started settings host root w) (small : settings.bufferSize < UInt32.size)
    (undisturbed : (opening settings host w).Undisturbed)
    (sized : buffer.size = settings.bufferSize)
    (first : j = Directory.atOnce root settings.maxPendingChanges settings.filter host) :
    (opening settings host w).Ledger root (j.offer buffer).1 (j.offer buffer).2 := by
  have arrivals : (opening settings host w).arrivals =
      [⟨host.tree.pathExists, host.atOnce root, j.overflowed⟩] := by
    rw [opening, Watch.firstArrival, started.request, first]
    rfl
  have kept : j.overflowed = false :=
    undisturbed ⟨host.tree.pathExists, host.atOnce root, j.overflowed⟩ (by
      rw [arrivals]
      exact List.mem_cons_self)
  have sound : j.Sound := by
    rw [first]
    exact Directory.atOnce_sound _ _ _ _
  rw [first] at kept
  obtain ⟨-, pending⟩ := Directory.enterAll_kept kept
  obtain ⟨still, conserved⟩ := Journal.offer_conserves sound (first ▸ kept) sized small
  have waits : j.pending = (host.atOnce root).filterMap
      (Delivery.change? host.tree.pathExists root settings.filter) := by
    rw [first]
    exact pending
  refine ⟨still, ?_⟩
  have same : (opening settings host w).watch.settings = settings := started.same_settings
  have none_told : (opening settings host w).told = [] := rfl
  rw [same, none_told, List.nil_append, conserved, arrived, arrivals, waits, same,
    List.flatMap_singleton]

/-- A delivery enters the balance on both sides. -/
theorem Ledger.deliver (h : a.Undisturbed → a.Ledger root stage j)
    (stands : a.watch.At root stage j l) (small : a.watch.settings.bufferSize < UInt32.size)
    {present : RawPath → Bool} {delivery : Delivery} {entered : Journal}
    (enters : ((a.watch.directoryAt root stage j).enter present delivery).journal = entered)
    (undisturbed : (a.deliver present delivery).Undisturbed) :
    (a.deliver present delivery).Ledger root (stage.refresh entered).1
      (stage.refresh entered).2 := by
  have arrivals : (a.deliver present delivery).arrivals =
      a.arrivals ++ [⟨present, [delivery], entered.overflowed⟩] := by
    rw [Account.deliver, arrival_at stands, enters]
  have before : a.Undisturbed := fun x hx => undisturbed x (by
    rw [arrivals]
    exact List.mem_append_left _ hx)
  have latest : (⟨present, [delivery], entered.overflowed⟩ : Arrival) ∈
      (a.deliver present delivery).arrivals := by
    rw [arrivals]
    exact List.mem_append_right _ List.mem_cons_self
  have kept : entered.overflowed = false := undisturbed _ latest
  have sound : entered.Sound := by
    rw [← enters]
    exact Directory.enter_sound stands.sound
  rw [← enters] at kept
  obtain ⟨-, pending⟩ := Directory.enter_kept kept
  rw [enters] at kept pending
  obtain ⟨still, conserved⟩ := Stage.refresh_conserves sound kept stands.sized small
  refine ⟨still, ?_⟩
  have same : (a.deliver present delivery).watch.settings = a.watch.settings :=
    (Watch.alike_deliver present a.watch delivery).settings
  have told : (a.deliver present delivery).told = a.told := rfl
  have arrived : (a.deliver present delivery).arrived root = a.arrived root ++
      (delivery.change? present root a.watch.settings.filter).toList := by
    rw [Account.arrived, Account.arrived, arrivals, same, List.flatMap_append,
      List.flatMap_singleton]
    congr 1
  have pending : entered.pending =
      j.pending ++ (delivery.change? present root a.watch.settings.filter).toList := pending
  rw [same, told, List.append_assoc, conserved, pending, arrived, List.filter_append,
    List.filter_append, ← (h before).balance]
  simp only [List.append_assoc]

/-- An error that is reported says nothing about changes. -/
theorem Ledger.callBack_failed {e : IoError} {a' : Account}
    (h : a.Ledger root (.ready (.failed e)) j) (settings : a'.watch.settings = a.watch.settings)
    (arrivals : a'.arrivals = a.arrivals) (told : a'.told = a.told) : a'.Ledger root .ended j where
  kept := h.kept
  balance := by
    rw [told, arrived, arrivals, settings]
    exact h.balance

/-- What the completion held has been told, and what the next one holds was pending. -/
theorem Ledger.callBack_done {bytes : Nat} {a' : Account}
    (h : a.Ledger root (.ready (.done buffer bytes)) j) (sound : j.Sound)
    (sized : buffer.size = a.watch.settings.bufferSize)
    (small : a.watch.settings.bufferSize < UInt32.size)
    (settings : a'.watch.settings = a.watch.settings) (arrivals : a'.arrivals = a.arrivals)
    (told : a'.told = a.told ++ Record.decodeFiltered buffer bytes a.watch.settings.patterns) :
    a'.Ledger root (j.offer buffer).1 (j.offer buffer).2 := by
  obtain ⟨kept, conserved⟩ := Journal.offer_conserves sound h.kept sized small
  refine ⟨kept, ?_⟩
  rw [told, arrived, arrivals, settings, List.append_assoc, conserved]
  exact h.balance

end Account

end DirWatch
