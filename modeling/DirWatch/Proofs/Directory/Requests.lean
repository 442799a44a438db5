import DirWatch.Proofs.Directory.Split
import Mathlib.Data.List.Forall2

/-!
# Reads and their completions

Every read that a directory accepts is told of once and answered once. `Directory.Turn` lists what
one operation can do to the read of a directory; from it follows, operation by operation, that the
reads accepted so far are those whose completions were taken, and at most one more that waits or has
its completion ready (`Directory.Settled`).
-/

namespace DirWatch

namespace ReadSlot

/-- The signal of the read that waits, if one does. -/
def waiting : ReadSlot → List SignalName
  | .armed _ signal => [signal]
  | _ => []

/-- The completion that has not been taken, if there is one. -/
def unretrieved : ReadSlot → List Completion
  | .finished completion => [completion]
  | _ => []

theorem waiting_or_unretrieved (slot : ReadSlot) : slot.waiting = [] ∨ slot.unretrieved = [] := by
  cases slot with
  | idle => exact .inl rfl
  | armed buffer signal => exact .inr rfl
  | finished completion => exact .inl rfl

end ReadSlot

namespace Directory

/-- A read that was accepted. -/
structure Request where
  signal : SignalName
  /-- The size of its buffer. -/
  size : Nat

/-- A completion answers a read: it returns the buffer with what lies in it, or an error. -/
def Request.AnsweredBy (r : Request) : Completion → Prop
  | .done buffer bytes => buffer.size = r.size ∧ bytes ≤ r.size
  | .failed _ => True

/-! ## What is written down -/

/-- The read that an act has accepted. -/
def accepted (d : Directory) : Act → List Request
  | .read host buffer subtree filter signal =>
    match (d.read host buffer subtree filter signal).1.answer with
    | .ok () => [⟨signal, buffer.size⟩]
    | .error _ => []
  | _ => []

def acceptedOf (d : Directory) : List Act → List Request
  | [] => []
  | act :: rest => d.accepted act ++ (d.act act).acceptedOf rest

/-- The signal that an act raises. -/
def signals (d : Directory) : Act → List SignalName
  | .deliver present delivery => (d.record present delivery).raised.toList
  | .read host buffer subtree filter signal =>
    (d.read host buffer subtree filter signal).1.raised.toList
  | .take => []
  | .close => d.close.raised.toList

def signalsOf (d : Directory) : List Act → List SignalName
  | [] => []
  | act :: rest => d.signals act ++ (d.act act).signalsOf rest

/-! ## One act -/

/-- What an act can do to the read of a directory: which read it accepts, which signal it raises and
which completion is taken. -/
inductive Turn : ReadSlot → List Request → List SignalName → List Completion → ReadSlot → Prop where
  | rests (slot : ReadSlot) : Turn slot [] [] [] slot
  | waits (buffer : Buffer) (signal : SignalName) :
      Turn .idle [⟨signal, buffer.size⟩] [] [] (.armed buffer signal)
  | endsAtOnce {r : Request} {completion : Completion} (answers : r.AnsweredBy completion) :
      Turn .idle [r] [r.signal] [] (.finished completion)
  | ends {buffer : Buffer} {signal : SignalName} {completion : Completion}
      (answers : Request.AnsweredBy ⟨signal, buffer.size⟩ completion) :
      Turn (.armed buffer signal) [] [signal] [] (.finished completion)
  | taken (completion : Completion) : Turn (.finished completion) [] [] [completion] .idle

theorem complete_answers (j : Journal) (buffer : Buffer) (signal : SignalName) :
    Request.AnsweredBy ⟨signal, buffer.size⟩ (j.complete buffer).1 := by
  cases completes : (j.complete buffer).1 with
  | done filled bytes => exact Journal.complete_within completes
  | failed e => trivial

/-- Journals end reads that wait and nothing else. -/
theorem turn_settle (d : Directory) :
    Turn d.slot [] d.settle.raised.toList [] d.settle.directory.slot := by
  rcases d.settle_cases with ⟨buffer, signal, armed, -, settles⟩ | ⟨-, settles⟩
  · rw [settles, armed]
    exact .ends (complete_answers d.journal buffer signal)
  · rw [settles]
    exact .rests d.slot

theorem turn_read (d : Directory) (host : Host) (buffer : Buffer) (subtree : Bool) (filter : Filter)
    (signal : SignalName) :
    Turn d.slot (d.accepted (.read host buffer subtree filter signal))
      (d.signals (.read host buffer subtree filter signal)) []
      (d.read host buffer subtree filter signal).1.directory.slot := by
  rw [accepted, signals]
  rcases d.read_outcome host buffer subtree filter signal with
    ⟨d', e, host', refused, slot⟩ | ⟨asked, host', accepts, armed, -, idle⟩
  · rw [refused, ← slot]
    exact .rests d'.slot
  · rw [accepts, idle]
    -- the read is armed and then ends if the journal has something to tell
    rcases asked.settle_cases with ⟨buffer', signal', armed', -, settles⟩ | ⟨-, settles⟩
    · obtain ⟨rfl, rfl⟩ := ReadSlot.armed.inj (armed.symm.trans armed')
      rw [settles]
      exact .endsAtOnce (complete_answers asked.journal buffer signal)
    · rw [settles]
      show Turn .idle [⟨signal, buffer.size⟩] [] [] asked.slot
      rw [armed]
      exact .waits buffer signal

theorem turn_close (d : Directory) :
    Turn d.slot [] d.close.raised.toList [] d.close.directory.slot := by
  by_cases closed : d.observation = .closed
  · rw [close, if_pos closed]
    exact .rests d.slot
  cases slot : d.slot with
  | armed buffer signal =>
    rw [close_armed closed slot]
    exact .ends trivial
  | idle =>
    rw [close_unarmed closed (by simp [slot]), ← slot]
    exact .rests d.slot
  | finished completion =>
    rw [close_unarmed closed (by simp [slot]), ← slot]
    exact .rests d.slot

theorem turn_take (d : Directory) : Turn d.slot [] [] d.take.1.toList d.take.2.slot := by
  rw [take]
  cases slot : d.slot with
  | finished completion => exact .taken completion
  | idle =>
    show Turn .idle [] [] [] d.slot
    rw [slot]
    exact .rests .idle
  | armed buffer signal =>
    show Turn (.armed buffer signal) [] [] [] d.slot
    rw [slot]
    exact .rests _

theorem turn (d : Directory) (act : Act) :
    Turn d.slot (d.accepted act) (d.signals act) (d.completions act) (d.act act).slot := by
  cases act with
  | deliver present delivery =>
    show Turn d.slot [] (d.record present delivery).raised.toList [] _
    rw [Directory.act, record]
    by_cases closed : d.observation = .closed
    · rw [if_pos closed]
      exact .rests d.slot
    · rw [if_neg closed, show d.slot = (d.enter present delivery).slot by rw [enter_eq]]
      exact turn_settle _
  | read host buffer subtree filter signal => exact d.turn_read host buffer subtree filter signal
  | take => exact d.turn_take
  | close => exact d.turn_close

/-! ## All acts -/

/-- How the reads that were accepted stand against the signals raised and the completions taken. All
of them are told of and answered in turn but the one that waits, and all completions taken but the
one that is ready. -/
inductive Settled : List Request → List SignalName → List Completion → ReadSlot → Prop where
  | idle {reads : List Request} {taken : List Completion}
      (answered : List.Forall₂ Request.AnsweredBy reads taken) :
      Settled reads (reads.map (·.signal)) taken .idle
  | armed {reads : List Request} {taken : List Completion} (buffer : Buffer) (signal : SignalName)
      (answered : List.Forall₂ Request.AnsweredBy reads taken) :
      Settled (reads ++ [⟨signal, buffer.size⟩]) (reads.map (·.signal)) taken
        (.armed buffer signal)
  | finished {reads : List Request} {taken : List Completion} {completion : Completion}
      (answered : List.Forall₂ Request.AnsweredBy reads (taken ++ [completion])) :
      Settled reads (reads.map (·.signal)) taken (.finished completion)

variable {reads reads' : List Request} {raised raised' : List SignalName}
  {taken taken' : List Completion} {slot slot' : ReadSlot}

theorem Settled.turn (h : Settled reads raised taken slot)
    (turn : Turn slot reads' raised' taken' slot') :
    Settled (reads ++ reads') (raised ++ raised') (taken ++ taken') slot' := by
  cases turn with
  | rests slot =>
    simp only [List.append_nil]
    exact h
  | waits buffer signal =>
    cases h with
    | idle answered =>
      simp only [List.append_nil]
      exact .armed buffer signal answered
  | @endsAtOnce r completion answers =>
    cases h with
    | idle answered =>
      have all : (reads ++ [r]).map (·.signal) = reads.map (·.signal) ++ [r.signal] :=
        List.map_append
      rw [← all, List.append_nil]
      exact .finished (List.rel_append answered (.cons answers .nil))
  | @ends buffer signal completion answers =>
    cases h with
    | @armed reads _ _ _ answered =>
      -- the last read accepted is the one that ends
      have all : (reads ++ [(⟨signal, buffer.size⟩ : Request)]).map (·.signal) =
          reads.map (·.signal) ++ [signal] := List.map_append
      rw [← all, List.append_nil, List.append_nil]
      exact .finished (List.rel_append answered (.cons answers .nil))
  | taken completion =>
    cases h with
    | finished answered =>
      simp only [List.append_nil]
      exact .idle answered

theorem Settled.after {d : Directory} (h : Settled reads raised taken d.slot) (acts : List Act) :
    Settled (reads ++ d.acceptedOf acts) (raised ++ d.signalsOf acts)
      (taken ++ d.completionsOf acts) (d.after acts).slot := by
  induction acts generalizing d reads raised taken with
  | nil =>
    rw [acceptedOf, signalsOf, completionsOf, List.append_nil, List.append_nil, List.append_nil]
    exact h
  | cons act rest ih =>
    rw [acceptedOf, signalsOf, completionsOf, ← List.append_assoc, ← List.append_assoc,
      ← List.append_assoc]
    exact ih (h.turn (d.turn act))

/-- The count of the reads, their signals and their completions. -/
theorem Settled.account (h : Settled reads raised taken slot) :
    reads.length = taken.length + slot.waiting.length + slot.unretrieved.length ∧
      reads.map (·.signal) = raised ++ slot.waiting ∧
      List.Forall₂ Request.AnsweredBy (reads.take raised.length) (taken ++ slot.unretrieved) := by
  cases h with
  | idle answered =>
    refine ⟨answered.length_eq, (List.append_nil _).symm, ?_⟩
    rw [List.length_map, List.take_length]
    show List.Forall₂ _ reads (taken ++ [])
    rw [List.append_nil]
    exact answered
  | @armed before _ buffer signal answered =>
    refine ⟨?_, List.map_append, ?_⟩
    · rw [List.length_append, answered.length_eq]
      rfl
    · rw [List.length_map, List.take_left]
      show List.Forall₂ _ before (taken ++ [])
      rw [List.append_nil]
      exact answered
  | finished answered =>
    refine ⟨?_, (List.append_nil _).symm, ?_⟩
    · rw [answered.length_eq, List.length_append]
      rfl
    · rw [List.length_map, List.take_length]
      exact answered

/-! ## Refusals -/

/-- Which reads a directory refuses that the backend observes when it is asked to, and that it is
the same afterwards. -/
structure Refuses (d : Directory) (answer : Except IoError Unit) (d' : Directory)
    (raised : Option SignalName) : Prop where
  closed : answer = .error closedError ↔ d.observation = .closed
  busy : answer = .error busyError ↔ d.observation ≠ .closed ∧ d.slot ≠ .idle
  other : ∀ e, answer = .error e → e = closedError ∨ e = busyError
  unchanged : ∀ e, answer = .error e → d' = d ∧ raised = none

theorem busyError_ne_closedError : busyError ≠ closedError := by
  intro same
  injection same with kinds
  contradiction

theorem refuses_read (d : Directory) {host : Host} (allowed : host.watchFailure = none)
    (buffer : Buffer) (subtree : Bool) (filter : Filter) (signal : SignalName) :
    Refuses d (d.read host buffer subtree filter signal).1.answer
      (d.read host buffer subtree filter signal).1.directory
      (d.read host buffer subtree filter signal).1.raised := by
  by_cases closed : d.observation = .closed
  · rw [read, if_pos closed]
    refine ⟨⟨fun _ => closed, fun _ => rfl⟩, ⟨?_, ?_⟩, ?_, fun e _ => ⟨rfl, rfl⟩⟩
    · intro same
      exact absurd (Except.error.inj same).symm busyError_ne_closedError
    · intro open_
      exact absurd closed open_.1
    · intro e same
      exact .inl (Except.error.inj same).symm
  by_cases idle : d.slot = .idle
  · have accepted : (d.read host buffer subtree filter signal).1.answer = .ok () := by
      by_cases unobserved : d.observation = .idle
      · rw [read_idle closed idle, observe_allowed (d := { d with filter }) unobserved allowed]
      · have observing : ∃ subtree', d.observation = .observing subtree' := by
          cases observation : d.observation with
          | idle => exact absurd observation unobserved
          | observing subtree' => exact ⟨subtree', rfl⟩
          | closed => exact absurd observation closed
        obtain ⟨subtree', observing⟩ := observing
        rw [read_observing observing idle]
    rw [accepted]
    refine ⟨⟨?_, fun shut => absurd shut closed⟩, ⟨?_, fun busy => absurd idle busy.2⟩, ?_, ?_⟩
    all_goals
      intros
      contradiction
  · rw [read_busy closed idle]
    refine ⟨⟨?_, fun shut => absurd shut closed⟩, ⟨fun _ => ⟨closed, idle⟩, fun _ => rfl⟩, ?_,
      fun e _ => ⟨rfl, rfl⟩⟩
    · intro same
      exact absurd (Except.error.inj same) busyError_ne_closedError
    · intro e same
      exact .inr (Except.error.inj same).symm

/-! ## Closing -/

/-- No read waits any more on a closed directory. -/
def Released (d : Directory) : Prop :=
  d.observation = .closed → ∀ buffer signal, d.slot ≠ .armed buffer signal

theorem observation_settle (d : Directory) :
    d.settle.directory.observation = d.observation := by
  rcases d.settle_cases with ⟨buffer, signal, -, -, settles⟩ | ⟨-, settles⟩
  · rw [settles]
  · rw [settles]

theorem Released.act {d : Directory} (h : d.Released) (act : Act) : (d.act act).Released := by
  cases act with
  | deliver present delivery =>
    rw [Directory.act, record]
    by_cases closed : d.observation = .closed
    · rw [if_pos closed]
      exact h
    · rw [if_neg closed]
      intro closed'
      rw [observation_settle, enter_eq] at closed'
      exact absurd closed' closed
  | read host buffer subtree filter signal =>
    rw [Directory.act]
    rcases d.read_cases host buffer subtree filter signal with
      ⟨e, -, same | asked⟩ | ⟨-, -, -, subtree', settles⟩
    · rw [same]
      exact h
    · rw [asked]
      exact h
    · rw [settles]
      intro closed'
      rw [observation_settle] at closed'
      contradiction
  | take =>
    intro closed buffer signal
    rw [Directory.act, take] at closed ⊢
    cases slot : d.slot with
    | idle =>
      rw [slot] at closed
      exact h closed buffer signal
    | armed buffer' signal' =>
      rw [slot] at closed
      exact h closed buffer signal
    | finished completion =>
      intro armed
      contradiction
  | close =>
    intro _ buffer signal armed
    rw [Directory.act] at armed
    by_cases closed : d.observation = .closed
    · rw [close, if_pos closed] at armed
      exact h closed buffer signal armed
    by_cases waits : ∃ buffer signal, d.slot = .armed buffer signal
    · obtain ⟨buffer', signal', slot⟩ := waits
      rw [close_armed closed slot] at armed
      contradiction
    · rw [close_unarmed closed fun buffer signal slot => waits ⟨buffer, signal, slot⟩] at armed
      exact waits ⟨buffer, signal, armed⟩

theorem Released.after {d : Directory} (h : d.Released) (acts : List Act) :
    (d.after acts).Released := by
  induction acts generalizing d with
  | nil => exact h
  | cons act rest ih => exact ih (h.act act)

/-- What closing does to the read of a directory. -/
structure Closes (d : Directory) : Prop where
  /-- The answer tells whether a read has waited. -/
  answer : d.close.answer = true ↔ ∃ buffer signal, d.slot = .armed buffer signal
  /-- A read that waits fails and is told so. -/
  aborted : ∀ buffer signal, d.slot = .armed buffer signal →
    d.close.directory.slot = .finished (.failed abortedError) ∧ d.close.raised = some signal
  /-- A completion that is ready stays so. -/
  kept : ∀ completion, d.slot = .finished completion →
    d.close.directory.slot = .finished completion ∧ d.close.raised = none
  /-- Nothing that is delivered matters any more, nor is closing again. -/
  shut : (∀ present delivery, d.close.directory.record present delivery =
      ⟨d.close.directory, (), none⟩) ∧
    d.close.directory.close = ⟨d.close.directory, false, none⟩

theorem Released.closes {d : Directory} (h : d.Released) : Closes d := by
  have shut := d.observation_close
  refine ⟨?_, ?_, ?_, fun present delivery => by rw [record, if_pos shut],
    by rw [close, if_pos shut]⟩
  · by_cases closed : d.observation = .closed
    · rw [close, if_pos closed]
      refine ⟨fun aborted => absurd aborted Bool.false_ne_true, ?_⟩
      rintro ⟨buffer, signal, armed⟩
      exact absurd armed (h closed buffer signal)
    by_cases waits : ∃ buffer signal, d.slot = .armed buffer signal
    · obtain ⟨buffer, signal, slot⟩ := waits
      rw [close_armed closed slot]
      exact ⟨fun _ => ⟨buffer, signal, slot⟩, fun _ => rfl⟩
    · rw [close_unarmed closed fun buffer signal slot => waits ⟨buffer, signal, slot⟩]
      exact ⟨fun aborted => absurd aborted Bool.false_ne_true, fun armed => absurd armed waits⟩
  · intro buffer signal armed
    have not_closed : d.observation ≠ .closed := fun closed => h closed buffer signal armed
    rw [close_armed not_closed armed]
    exact ⟨rfl, rfl⟩
  · intro completion finished
    by_cases closed : d.observation = .closed
    · rw [close, if_pos closed]
      exact ⟨finished, rfl⟩
    · rw [close_unarmed closed (by simp [finished])]
      exact ⟨finished, rfl⟩

/-! ## Reads of a directory that has been opened -/

/-- How the reads of a directory that has just been opened stand after some acts. -/
structure Answered (d : Directory) (acts : List Act) : Prop where
  /-- Every read accepted has its completion taken, but for one at most: it waits, or its completion
  is ready. -/
  count : (d.acceptedOf acts).length = (d.completionsOf acts).length +
    (d.after acts).slot.waiting.length + (d.after acts).slot.unretrieved.length
  one : (d.after acts).slot.waiting = [] ∨ (d.after acts).slot.unretrieved = []
  /-- The signals raised are those of the reads accepted, one for each in turn, without the one that
  waits. -/
  signals : (d.acceptedOf acts).map (·.signal) =
    d.signalsOf acts ++ (d.after acts).slot.waiting
  /-- The completions answer these reads, one for each in turn. -/
  completions : List.Forall₂ Request.AnsweredBy
    ((d.acceptedOf acts).take (d.signalsOf acts).length)
    (d.completionsOf acts ++ (d.after acts).slot.unretrieved)
  /-- A signal is raised by the act that makes the completion ready, and a completion that is ready
  stays until it is taken. -/
  turns : ∀ before act rest, acts = before ++ act :: rest →
    Turn (d.after before).slot ((d.after before).accepted act) ((d.after before).signals act)
      ((d.after before).completions act) (d.after (before ++ [act])).slot
  refuses : ∀ host : Host, host.watchFailure = none → ∀ buffer subtree filter signal,
    Refuses (d.after acts) ((d.after acts).read host buffer subtree filter signal).1.answer
      ((d.after acts).read host buffer subtree filter signal).1.directory
      ((d.after acts).read host buffer subtree filter signal).1.raised
  closes : Closes (d.after acts)

/-- Every read accepted is told of once and answered once. It makes no difference whether a read and
its completion have one place or two, of which one is always empty. -/
theorem answered (root : RawPath) (capacity : Nat) (acts : List Act) :
    Answered (fresh root capacity) acts ∧
      (SplitDirectory.fresh root capacity).replies acts = (fresh root capacity).replies acts ∧
      (((SplitDirectory.fresh root capacity).after acts).armed = none ∨
        ((SplitDirectory.fresh root capacity).after acts).completed = none) := by
  have settled := Settled.after (d := fresh root capacity) (.idle .nil) acts
  have released : ((fresh root capacity).after acts).Released :=
    Released.after (fun closed => by contradiction) acts
  have shows := (SplitDirectory.shows_fresh root capacity).after acts
  simp only [List.map_nil, List.nil_append] at settled
  obtain ⟨count, signals, completions⟩ := settled.account
  refine ⟨⟨count, ReadSlot.waiting_or_unretrieved _, signals, completions, ?_, ?_,
    released.closes⟩, shows.1, shows.2.apart⟩
  · intro before act rest _
    rw [after_append]
    exact turn _ act
  · intro host allowed buffer subtree filter signal
    exact refuses_read _ allowed buffer subtree filter signal

end Directory

end DirWatch
