import DirWatch.Proofs.Watch.Running

/-!
# Room for changes

A directory is opened with room for some changes. However much the backend delivers, no more than
that wait in its journal (`Journal.Bounded`), whatever happens to the watch that has opened it
(`Watch.Bounded.happen`).
-/

namespace DirWatch

namespace Journal

/-- There is room for so many changes, and for one at least, and no more wait. -/
structure Bounded (room : Nat) (j : Journal) : Prop where
  capacity : j.capacity = max 1 room
  pending : j.pending.length ≤ max 1 room

variable {room : Nat} {j : Journal}

theorem bounded_empty (room : Nat) : (empty room).Bounded room := ⟨rfl, Nat.zero_le _⟩

theorem Bounded.overflow (h : j.Bounded room) : j.overflow.Bounded room :=
  ⟨h.capacity, Nat.zero_le _⟩

theorem Bounded.push (h : j.Bounded room) (c : Change) : (j.push c).Bounded room := by
  refine ⟨(j.push_capacity c).trans h.capacity, ?_⟩
  rw [Journal.push]
  by_cases lost : j.overflowed
  · rw [if_pos lost]
    exact h.pending
  rw [if_neg lost]
  by_cases full : j.capacity ≤ j.pending.length
  · -- a journal without room gives up all that waits in it
    rw [if_pos full]
    exact Nat.zero_le _
  · rw [if_neg full]
    show (j.pending ++ [c]).length ≤ max 1 room
    rw [List.length_append, List.length_singleton, ← h.capacity]
    omega

theorem Bounded.complete (h : j.Bounded room) (buffer : Buffer) :
    (j.complete buffer).2.Bounded room := by
  obtain ⟨left, -⟩ := complete_pending_suffix j buffer
  exact ⟨(j.complete_capacity buffer).trans h.capacity, Nat.le_trans left.length_le h.pending⟩

end Journal

namespace Directory

variable {room : Nat} {d : Directory}

theorem bounded_enter (h : d.journal.Bounded room) (present : RawPath → Bool)
    (delivery : Delivery) : (d.enter present delivery).journal.Bounded room := by
  cases delivery with
  | error e => exact ⟨h.capacity, h.pending⟩
  | ok notice =>
    rw [enter]
    split
    · exact h.overflow
    · split
      · exact h
      · next c _ => exact h.push c

theorem bounded_enterAll (h : d.journal.Bounded room) (present : RawPath → Bool)
    (deliveries : List Delivery) : (d.enterAll present deliveries).journal.Bounded room := by
  induction deliveries generalizing d with
  | nil => exact h
  | cons delivery rest ih => exact ih (bounded_enter h present delivery)

theorem bounded_settle (h : d.journal.Bounded room) :
    d.settle.directory.journal.Bounded room := by
  rcases d.settle_cases with ⟨buffer, signal, -, -, settles⟩ | ⟨-, settles⟩
  · rw [settles]
    exact h.complete buffer
  · rw [settles]
    exact h

theorem bounded_record (h : d.journal.Bounded room) (present : RawPath → Bool)
    (delivery : Delivery) : (d.record present delivery).directory.journal.Bounded room := by
  rw [record]
  by_cases closed : d.observation = .closed
  · rw [if_pos closed]
    exact h
  · rw [if_neg closed]
    exact bounded_settle (bounded_enter h present delivery)

theorem bounded_read (h : d.journal.Bounded room) (host : Host) (buffer : Buffer)
    (subtree : Bool) (filter : Filter) (signal : SignalName) :
    (d.read host buffer subtree filter signal).1.directory.journal.Bounded room := by
  rcases d.read_cases host buffer subtree filter signal with
    ⟨e, -, same | asked⟩ | ⟨-, -, -, subtree', settles⟩
  · rw [same]
    exact h
  · rw [asked]
    exact h
  · rw [settles]
    exact bounded_settle (bounded_enterAll (d := { d with filter }) h _ _)

theorem bounded_close (h : d.journal.Bounded room) : d.close.directory.journal.Bounded room := by
  have emptied : ({ d.journal with pending := [] } : Journal).Bounded room :=
    ⟨h.capacity, Nat.zero_le _⟩
  rw [close]
  split
  · exact h
  · split
    · exact emptied
    · exact emptied

end Directory

namespace Watch

variable {w : Watch} {d : Directory} {l : Latch} {host : Host}

/-- The journal of a watch that is open holds no more than the watch was set up for. -/
def Bounded (w : Watch) : Prop :=
  ∀ d, w.directory = some d → d.journal.Bounded w.settings.maxPendingChanges

theorem directory_raise (w : Watch) (raised : Option SignalName) :
    (w.raise raised).directory = w.directory := by
  rw [raise]
  split <;> rfl

/-- A watch is bounded if its directory is. -/
theorem bounded_of_directory {w' : Watch} (alike : w.Alike w') (directory : w'.directory = some d)
    (bounded : d.journal.Bounded w.settings.maxPendingChanges) : w'.Bounded := by
  intro d' opened
  obtain rfl := Option.some.inj (directory.symm.trans opened)
  rw [alike.settings]
  exact bounded

theorem Bounded.deliver (h : w.Bounded) (present : RawPath → Bool) (delivery : Delivery) :
    (w.deliver present delivery).Bounded := by
  have alike := alike_deliver present w delivery
  cases opened : w.directory with
  | none =>
    rw [Watch.deliver, opened]
    exact h
  | some d =>
    apply bounded_of_directory alike (d := (d.record present delivery).directory)
    · rw [Watch.deliver, opened]
      exact directory_raise _ _
    · exact Directory.bounded_record (h d opened) present delivery

theorem Bounded.sever (h : w.Bounded) : w.sever.Bounded := by
  have alike := alike_sever w
  cases opened : w.directory with
  | none =>
    rw [Watch.sever, opened]
    exact h
  | some d =>
    apply bounded_of_directory alike (d := d.close.directory)
    · rw [Watch.sever, opened]
      exact directory_raise _ _
    · exact Directory.bounded_close (h d opened)

theorem Bounded.initiateRead (h : w.Bounded) (signal : w.signal = some l)
    (opened : w.directory = some d) (host : Host) : (w.initiateRead host).2.1.Bounded := by
  have alike := alike_initiateRead w host
  have bounded := Directory.bounded_read (h d opened) host w.nextBuffer w.settings.includeSubtree
    w.settings.filter w.signalName
  apply bounded_of_directory alike (d := (d.read host w.nextBuffer w.settings.includeSubtree
    w.settings.filter w.signalName).1.directory) _ bounded
  rw [initiateRead_eq signal opened]
  generalize d.read host w.nextBuffer _ _ _ = outcome
  obtain ⟨⟨d', answer, raised⟩, host'⟩ := outcome
  cases answer with
  | error e => rfl
  | ok => exact directory_raise _ _

theorem Bounded.endRead (h : w.Bounded) (opened : w.directory = some d) (completion : Completion) :
    (w.endRead { d with slot := .idle } completion).Bounded := by
  apply bounded_of_directory (alike_endRead w _ completion) (d := { d with slot := .idle })
  · cases completion <;> rfl
  · exact h d opened

theorem Bounded.onReadComplete (h : w.Bounded) (signal : w.signal = some l)
    (opened : w.directory = some d) (host : Host) : (w.onReadComplete host).2.1.Bounded := by
  have happens := called opened host
  generalize w.onReadComplete host = outcome at happens ⊢
  cases happens with
  | idle unfinished => exact h
  | failed finished => exact h.endRead opened _
  | closing finished closed => exact h.endRead opened _
  | @again buffer bytes _ _ finished not_closed asks =>
    have asked := (h.endRead opened (.done buffer bytes)).initiateRead (l := l) signal rfl host
    rw [asks] at asked
    exact asked
  | @refused buffer bytes _ _ _ finished not_closed asks =>
    have asked := (h.endRead opened (.done buffer bytes)).initiateRead (l := l) signal rfl host
    rw [asks] at asked
    exact asked

theorem Bounded.happen (h : w.Bounded) (signal : w.signal = some l) (opened : w.directory = some d)
    (x : Happening) : (w.happen x).2.Bounded := by
  cases x with
  | deliver present delivery => exact h.deliver present delivery
  | callBack host => exact h.onReadComplete signal opened host
  | sever => exact h.sever
  | work host =>
    show (w.work host).2.1.Bounded
    rw [work]
    split
    · have consumed : w.consumeSignal.signal = some l.consume.2 := by
        rw [consumeSignal, signal]
        rfl
      exact Bounded.onReadComplete (w := w.consumeSignal) h consumed opened host
    · exact h

end Watch

end DirWatch
