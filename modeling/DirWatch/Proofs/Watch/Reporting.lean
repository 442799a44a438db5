import DirWatch.Proofs.Watch.Lives
import DirWatch.Proofs.Watch.Running

/-!
# Reports and counts

A watch reports something exactly when it counts a read that has ended or was refused
(`Watch.ended_onReadComplete`). So an active watch has counted as many ends as it has made reports
(`Account.Lived.reported`).
-/

namespace DirWatch

/-- Reads that have ended or were refused. -/
def Counters.ended (c : Counters) : Nat := c.completed + c.failed

theorem Counters.ended_finish (c : Counters) (ok : Bool) : (c.finish ok).ended = c.ended + 1 := by
  cases ok with
  | true => exact Nat.add_right_comm c.completed 1 c.failed
  | false => rfl

namespace Watch

variable {w w' : Watch} {d : Directory} {l : Latch}

theorem length_report (linked : w.linked = true) (payload : Payload) :
    (w.report payload).length = 1 := by
  rw [report, if_pos linked]
  rfl

/-- A request that is refused ends at once, and one that is accepted has not ended. -/
theorem ended_initiateRead (signal : w.signal = some l) (opened : w.directory = some d)
    (host : Host) :
    (w.initiateRead host).2.1.counters.ended =
      w.counters.ended + if (w.initiateRead host).1.isOk then 0 else 1 := by
  rcases d.read_outcome host w.nextBuffer w.settings.includeSubtree w.settings.filter
    w.signalName with ⟨d', e, host', refuses, -⟩ | ⟨asked, host', accepts, -⟩
  · rw [initiateRead_refused signal opened refuses]
    exact w.counters.issue.ended_finish false
  · rw [initiateRead_accepted signal opened accepts]
    show (raise _ _).counters.ended = w.counters.ended
    rw [counters_raise]
    rfl

theorem ended_endRead (w : Watch) (d : Directory) (completion : Completion) :
    (w.endRead d completion).counters.ended = w.counters.ended + 1 := by
  cases completion with
  | failed e => exact w.counters.ended_finish false
  | done buffer bytes => exact w.counters.ended_finish true

/-- Each report of the callback tells of a read that has ended or was refused. -/
theorem ended_onReadComplete (opened : w.directory = some d) (signal : w.signal = some l)
    (linked : w.linked = true) (host : Host) :
    (w.onReadComplete host).2.1.counters.ended =
      w.counters.ended + (w.onReadComplete host).1.length := by
  have asking : ∀ {buffer bytes}, ∀ {result : Except IoError Unit} {w' host'},
      (w.endRead { d with slot := .idle } (.done buffer bytes)).initiateRead host =
        (result, w', host') →
      w'.linked = true ∧
        w'.counters.ended = w.counters.ended + 1 + if result.isOk then 0 else 1 := by
    intro buffer bytes result w' host' asks
    have asked := ended_initiateRead
      (w := w.endRead { d with slot := .idle } (.done buffer bytes)) signal rfl host
    have alike := alike_initiateRead (w.endRead { d with slot := .idle } (.done buffer bytes)) host
    rw [asks] at asked alike
    rw [ended_endRead] at asked
    exact ⟨alike.linked.trans linked, asked⟩
  have happens := called opened host
  generalize w.onReadComplete host = outcome at happens ⊢
  cases happens with
  | idle unfinished => rfl
  | failed finished =>
    show (w.endRead _ _).counters.ended = _
    rw [ended_endRead, length_report linked]
  | closing finished closed =>
    show (w.endRead _ _).counters.ended = _
    rw [ended_endRead, length_report linked]
  | again finished not_closed asks =>
    rw [length_report linked]
    exact (asking asks).2
  | refused finished not_closed asks =>
    obtain ⟨still_linked, ended⟩ := asking asks
    rw [List.length_append, length_report linked, length_report still_linked]
    exact ended

theorem ended_work (opened : w.directory = some d) (signal : w.signal = some l)
    (linked : w.linked = true) (host : Host) :
    (w.work host).2.1.counters.ended = w.counters.ended + (w.work host).1.length := by
  rw [work]
  split
  · have consumed : w.consumeSignal.signal = some l.consume.2 := by
      rw [consumeSignal, signal]
      rfl
    exact ended_onReadComplete (w := w.consumeSignal) opened consumed linked host
  · rfl

end Watch

/-- An active watch has counted an end of a read for each of its reports. -/
theorem Account.Lived.reported {loose : Bool} {a : Account} (h : a.Lived loose) :
    a.sent.length = a.watch.counters.ended := by
  induction h with
  | opening set_up =>
    obtain ⟨root, started⟩ := Watch.started_of_setUp set_up
    exact (congrArg Counters.ended started.counters).symm
  | @deliver a before present delivery ih =>
    show a.sent.length = (a.watch.deliver present delivery).counters.ended
    rw [Watch.counters_deliver]
    exact ih
  | @work a before host ih =>
    obtain ⟨root, stage, j, l, holds⟩ := before.holds
    rw [Account.work_eq]
    show (a.sent ++ (a.watch.work host).1).length = (a.watch.work host).2.1.counters.ended
    rw [Watch.ended_work holds.stands.opened holds.stands.signal holds.linked,
      List.length_append, ih]
  | @callBack a may before host ih =>
    obtain ⟨root, stage, j, l, holds⟩ := before.holds
    show (a.sent ++ (a.watch.onReadComplete host).1).length =
      (a.watch.onReadComplete host).2.1.counters.ended
    rw [Watch.ended_onReadComplete holds.stands.opened holds.stands.signal holds.linked,
      List.length_append, ih]
  | dispatch before ih => exact ih

end DirWatch
