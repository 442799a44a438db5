import DirWatch.Proofs.Directory.Losses
import DirWatch.Proofs.Directory.Requests
import Mathlib.Data.List.Induction

/-!
# Errors wait their turn

An error of the backend stays in the journal until a read fails with it, and a read fails only when
there is nothing else to tell. The troubles of a directory (`Directory.troublesOf`) are the errors
that arrive and the reads that fail, in the order in which this happens. `Trouble.Regular` says that
each error that a read fails with stands right behind its arrival, so that it is told once and is
the one that arrived last. `History.errors_wait` puts this together with what has become of the
changes by then.
-/

namespace DirWatch

/-- The error of the backend, if it delivers one. -/
def Delivery.error? : Delivery → Option BackendError
  | .error e => some e
  | .ok _ => none

/-- The error of a read that has failed. -/
def Completion.error? : Completion → Option IoError
  | failed e => some e
  | done _ _ => none

/-- What goes wrong with a directory. -/
inductive Trouble where
  /-- The backend fails. -/
  | arrived (e : BackendError)
  /-- A read fails because the backend did. -/
  | told (e : IoError)
  /-- The directory is closed under a read that waits. -/
  | aborted

namespace Trouble

/-- The error that a read fails with. -/
def failure? : Trouble → Option IoError
  | arrived _ => none
  | told e => some e
  | aborted => some Directory.abortedError

/-- The error that has arrived last, unless a read has failed since. -/
def untold (troubles : List Trouble) : Option IoError :=
  match troubles.getLast? with
  | some (.arrived e) => some e.toIo
  | _ => none

/-- Reads fail because of the error that has arrived last, and for each error once. -/
inductive Regular : List Trouble → Prop where
  | nil : Regular []
  | arrived {troubles : List Trouble} (before : Regular troubles) (e : BackendError) :
      Regular (troubles ++ [arrived e])
  | told {troubles : List Trouble} {e : IoError} (before : Regular troubles)
      (waits : untold troubles = some e) : Regular (troubles ++ [told e])
  | aborted {troubles : List Trouble} (before : Regular troubles) : Regular (troubles ++ [aborted])

variable {troubles : List Trouble} {e : IoError}

theorem untold_snoc (troubles : List Trouble) (t : Trouble) :
    untold (troubles ++ [t]) = untold [t] := by
  rw [untold, List.getLast?_concat]
  rfl

theorem arrived_of_untold (waits : untold troubles = some e) :
    ∃ front x, troubles = front ++ [arrived x] ∧ x.toIo = e := by
  cases troubles using List.reverseRecOn with
  | nil => simp [untold] at waits
  | append_singleton front t =>
    rw [untold_snoc] at waits
    cases t with
    | arrived x => exact ⟨front, x, rfl, Option.some.inj waits⟩
    | told e' => simp [untold] at waits
    | aborted => simp [untold] at waits

/-- The error that a read fails with stands right behind its arrival. -/
theorem Regular.told_last (h : Regular troubles) {front back : List Trouble}
    (split : troubles = front ++ Trouble.told e :: back) :
    ∃ front' x, front = front' ++ [Trouble.arrived x] ∧ x.toIo = e := by
  induction back using List.reverseRecOn generalizing troubles with
  | nil =>
    cases h with
    | nil => simp at split
    | arrived => simpa using (List.append_inj' split rfl).2
    | aborted => simpa using (List.append_inj' split rfl).2
    | told before waits =>
      obtain ⟨rfl, same⟩ := List.append_inj' split rfl
      obtain rfl := Trouble.told.inj (List.singleton_inj.mp same)
      exact arrived_of_untold waits
  | append_singleton back last ih =>
    have inner : ∀ {all : List Trouble} {t : Trouble},
        all ++ [t] = front ++ Trouble.told e :: (back ++ [last]) →
          all = front ++ Trouble.told e :: back := by
      intro all t same
      rw [← List.cons_append, ← List.append_assoc] at same
      exact (List.append_inj' same rfl).1
    cases h with
    | nil => simp at split
    | arrived before => exact ih before (inner split)
    | told before => exact ih before (inner split)
    | aborted before => exact ih before (inner split)

/-- The error that waits when further ones have arrived: the last of them, or the one before. -/
def heard (waiting : Option IoError) (errors : List BackendError) : Option IoError :=
  errors.foldl (fun _ e => some e.toIo) waiting

theorem untold_arrived (troubles : List Trouble) (errors : List BackendError) :
    untold (troubles ++ errors.map arrived) = heard (untold troubles) errors := by
  induction errors generalizing troubles with
  | nil =>
    rw [List.map_nil, List.append_nil]
    rfl
  | cons x rest ih =>
    rw [List.map_cons, List.append_cons, ih, untold_snoc]
    rfl

theorem Regular.arrivals (h : Regular troubles) (errors : List BackendError) :
    Regular (troubles ++ errors.map Trouble.arrived) := by
  induction errors generalizing troubles with
  | nil =>
    rw [List.map_nil, List.append_nil]
    exact h
  | cons x rest ih =>
    rw [List.map_cons, List.append_cons]
    exact ih (h.arrived x)

end Trouble

open Trouble

namespace Directory

/-! ## What is written down -/

/-- The errors of the backend that arrive while an act goes on. -/
def errors (d : Directory) : Act → List BackendError
  | .deliver _ delivery => if d.observation = .closed then [] else delivery.error?.toList
  | .read host buffer subtree filter signal =>
    match (d.read host buffer subtree filter signal).1.answer with
    | .error _ => []
    | .ok () => (d.deliveredAtOnce host).filterMap Delivery.error?
  | _ => []

/-- The error of the read that has failed between two states of a directory. -/
def failedSince (d d' : Directory) : Option IoError :=
  match d.take.1, d'.take.1 with
  | none, some (.failed e) => some e
  | _, _ => none

/-- The error of the read that fails while an act goes on, if it is not aborted. -/
def failedWith (d : Directory) : Act → Option IoError
  | .close => none
  | act => d.failedSince (d.act act)

/-- What goes wrong while an act goes on: first errors arrive, then a read may fail. -/
def troubles (d : Directory) : Act → List Trouble
  | .close => if d.close.answer then [.aborted] else []
  | act => (d.errors act).map .arrived ++ (d.failedWith act).toList.map .told

def troublesOf (d : Directory) : List Act → List Trouble
  | [] => []
  | act :: rest => d.troubles act ++ (d.act act).troublesOf rest

/-- The error of a completion that has not been taken. -/
def unretrieved (d : Directory) : List IoError := d.take.1.toList.filterMap Completion.error?

theorem troublesOf_append (d : Directory) (acts more : List Act) :
    d.troublesOf (acts ++ more) = d.troublesOf acts ++ (d.after acts).troublesOf more := by
  induction acts generalizing d with
  | nil => rfl
  | cons act rest ih =>
    rw [List.cons_append, troublesOf, ih, troublesOf, List.append_assoc]
    rfl

/-! ## One act -/

/-- What an act other than closing does to the error that waits. -/
inductive Course (d d' : Directory) (errors : List BackendError) : Prop where
  /-- No read fails, and the error that waits goes on waiting. -/
  | waits (failure : d'.journal.failure = heard d.journal.failure errors)
      (ends : d'.take.1 = d.take.1 ∨
        d.take.1 = none ∧ ∃ filled bytes, d'.take.1 = some (.done filled bytes))
  /-- A read fails with the error that waits, and then there is nothing to tell. -/
  | fails {e : IoError} (failure : heard d.journal.failure errors = some e)
      (under_way : d.take.1 = none) (completion : d'.take.1 = some (.failed e))
      (silent : d'.journal.hasOutput = false)

variable {d d' : Directory} {errors : List BackendError}

theorem failedSince_self (same : d'.take.1 = d.take.1) : d.failedSince d' = none := by
  rw [failedSince, same]
  cases d.take.1 <;> rfl

theorem Course.failedSince (h : Course d d' errors) :
    (d.failedSince d' = none ∧ d'.journal.failure = heard d.journal.failure errors) ∨
    ∃ e, d.failedSince d' = some e ∧ heard d.journal.failure errors = some e ∧
      d'.take.1 = some (.failed e) ∧ d'.journal.hasOutput = false := by
  cases h with
  | waits failure ends =>
    refine .inl ⟨?_, failure⟩
    rcases ends with same | ⟨under_way, filled, bytes, completion⟩
    · exact failedSince_self same
    · rw [Directory.failedSince, under_way, completion]
  | @fails e failure under_way completion silent =>
    refine .inr ⟨e, ?_, failure, completion, silent⟩
    rw [Directory.failedSince, under_way, completion]

/-- The errors of reads that have failed and were not taken yet are those of before, and the one
that has come now. -/
theorem Course.unretrieved (h : Course d d' errors) :
    d'.unretrieved = d.unretrieved ++ (d.failedSince d').toList := by
  rw [Directory.unretrieved, Directory.unretrieved]
  cases h with
  | waits failure ends =>
    rcases ends with same | ⟨under_way, filled, bytes, completion⟩
    · rw [failedSince_self same, same]
      exact (List.append_nil _).symm
    · rw [Directory.failedSince, under_way, completion]
      rfl
  | fails failure under_way completion silent =>
    rw [Directory.failedSince, under_way, completion]
    rfl

/-- A read that ends fails only when there is nothing but the error to tell; else the error stays.
-/
theorem complete_error (j : Journal) (buffer : Buffer) (output : j.hasOutput = true) :
    (∃ e, j.failure = some e ∧ (j.complete buffer).1 = .failed e ∧
      (j.complete buffer).2.hasOutput = false) ∨
    (∃ filled bytes, (j.complete buffer).1 = .done filled bytes) ∧
      (j.complete buffer).2.failure = j.failure := by
  obtain ⟨capacity, pending, overflowed, failure⟩ := j
  cases overflowed with
  | true => exact .inr ⟨⟨buffer, 0, rfl⟩, rfl⟩
  | false =>
    cases pending with
    | cons c rest => exact .inr ⟨⟨_, _, rfl⟩, rfl⟩
    | nil =>
      cases failure with
      | some e => exact .inl ⟨e, rfl, rfl, rfl⟩
      | none => simp [Journal.hasOutput] at output

/-- Whatever has entered the journal, a read that waits ends as it should. -/
theorem course_settle {entered : Directory} (same : entered.take.1 = d.take.1)
    (failure : entered.journal.failure = heard d.journal.failure errors) :
    Course d entered.settle.directory errors := by
  rcases entered.settle_cases with ⟨buffer, signal, armed, output, settles⟩ | ⟨-, settles⟩
  · have under_way : d.take.1 = none := by rw [← same, take, armed]
    rw [settles]
    rcases complete_error entered.journal buffer output with
      ⟨e, waits, completion, silent⟩ | ⟨⟨filled, bytes, completion⟩, stays⟩
    · refine .fails (failure ▸ waits) under_way ?_ silent
      exact congrArg some completion
    · refine .waits (stays.trans failure) (.inr ⟨under_way, filled, bytes, ?_⟩)
      exact congrArg some completion
  · rw [settles]
    exact .waits failure (.inl same)

theorem failure_enter (present : RawPath → Bool) (d : Directory) (delivery : Delivery) :
    (d.enter present delivery).journal.failure =
      heard d.journal.failure delivery.error?.toList := by
  cases delivery with
  | error e => rfl
  | ok notice =>
    have pushed : ∀ c, (d.journal.push c).failure = d.journal.failure := by
      intro c
      unfold Journal.push
      split
      · rfl
      · split <;> rfl
    show (d.enter present (.ok notice)).journal.failure = d.journal.failure
    rw [enter]
    split
    · rfl
    · split
      · rfl
      · exact pushed _

theorem failure_enterAll (present : RawPath → Bool) (d : Directory) (deliveries : List Delivery) :
    (d.enterAll present deliveries).journal.failure =
      heard d.journal.failure (deliveries.filterMap Delivery.error?) := by
  induction deliveries generalizing d with
  | nil => rfl
  | cons delivery rest ih =>
    show ((d.enter present delivery).enterAll present rest).journal.failure = _
    rw [ih, failure_enter, List.filterMap_cons]
    cases delivery.error? <;> rfl

/-- To take a completion is no trouble, and changes nothing but the read. -/
theorem after_take (d : Directory) :
    d.failedSince (d.act .take) = none ∧ (d.act .take).observation = d.observation ∧
      (d.act .take).journal = d.journal := by
  obtain ⟨root, filter, j, slot, observation⟩ := d
  cases slot <;> exact ⟨rfl, rfl, rfl⟩

theorem troubles_eq (d : Directory) {act : Act} (goes_on : act ≠ .close) :
    d.troubles act = (d.errors act).map .arrived ++
      (d.failedSince (d.act act)).toList.map .told := by
  cases act with
  | close => exact absurd rfl goes_on
  | _ => rfl

/-- A directory that is closed lets nothing happen but that its completion is taken. -/
theorem act_closed (closed : d.observation = .closed) {act : Act} (leaves : act ≠ .take) :
    d.act act = d ∧ d.troubles act = [] := by
  cases act with
  | take => exact absurd rfl leaves
  | deliver present delivery =>
    have same : d.act (.deliver present delivery) = d := by
      rw [Directory.act, record, if_pos closed]
    rw [troubles_eq d Act.noConfusion, same, failedSince_self rfl, Directory.errors, if_pos closed]
    exact ⟨rfl, rfl⟩
  | read host buffer subtree filter signal =>
    have refused : d.read host buffer subtree filter signal =
        (⟨d, .error closedError, none⟩, host) := by rw [Directory.read, if_pos closed]
    have same : d.act (.read host buffer subtree filter signal) = d := by
      rw [Directory.act, refused]
    rw [troubles_eq d Act.noConfusion, same, failedSince_self rfl, Directory.errors, refused]
    exact ⟨rfl, rfl⟩
  | close =>
    rw [troubles, Directory.act, close, if_pos closed]
    exact ⟨rfl, rfl⟩

theorem troubles_take (d : Directory) : d.troubles .take = [] := by
  rw [troubles_eq d Act.noConfusion, d.after_take.1]
  rfl

/-- As long as a directory is open, an act other than closing and taking a completion keeps to the
course of errors, and leaves it open. -/
theorem course (still_open : d.observation ≠ .closed) {act : Act} (goes_on : act ≠ .close)
    (leaves : act ≠ .take) :
    Course d (d.act act) (d.errors act) ∧ (d.act act).observation ≠ .closed := by
  cases act with
  | close => exact absurd rfl goes_on
  | take => exact absurd rfl leaves
  | deliver present delivery =>
    rw [Directory.act, record, if_neg still_open, Directory.errors, if_neg still_open]
    constructor
    · refine course_settle (take_congr ?_) (failure_enter present d delivery)
      rw [enter_eq]
    · rw [observation_settle, enter_eq]
      exact still_open
  | read host buffer subtree filter signal =>
    rw [Directory.act, Directory.errors]
    rcases d.read_cases host buffer subtree filter signal with
      ⟨e, refused, same | same⟩ | ⟨-, idle, accepted, subtree', same⟩
    · rw [refused, same]
      exact ⟨.waits rfl (.inl rfl), still_open⟩
    · rw [refused, same]
      exact ⟨.waits rfl (.inl (take_congr rfl)), still_open⟩
    · rw [accepted, same]
      constructor
      · refine course_settle ?_ (failure_enterAll host.tree.pathExists { d with filter } _)
        rw [take, take, idle]
      · rw [observation_settle]
        exact Observation.noConfusion

/-- A read that fails for the backend's sake leaves nothing to tell. -/
theorem failed_read {act : Act} {e : IoError} (fails : d.failedWith act = some e) :
    act ≠ .close ∧ d.failedSince (d.act act) = some e ∧ (d.act act).observation ≠ .closed ∧
      (d.act act).take.1 = some (.failed e) ∧ (d.act act).journal.hasOutput = false := by
  have goes_on : act ≠ .close := by
    rintro rfl
    simp [failedWith] at fails
  have since : d.failedSince (d.act act) = some e := by
    cases act with
    | close => exact absurd rfl goes_on
    | _ => exact fails
  have leaves : act ≠ .take := by
    rintro rfl
    rw [d.after_take.1] at since
    contradiction
  have still_open : d.observation ≠ .closed := by
    intro closed
    rw [(act_closed closed leaves).1, failedSince_self rfl] at since
    contradiction
  obtain ⟨course, open_then⟩ := Directory.course still_open goes_on leaves
  rcases course.failedSince with ⟨none_fails, -⟩ | ⟨e', fails', -, completion, silent⟩
  · rw [none_fails] at since
    contradiction
  · obtain rfl : e' = e := Option.some.inj (fails'.symm.trans since)
    exact ⟨goes_on, since, open_then, completion, silent⟩

/-! ## Runs -/

/-- Whatever happens to an open directory, reads fail with the error that waits and with no other
one. -/
theorem regular_act {past : List Trouble} (regular : Regular past)
    (still_open : d.observation ≠ .closed) (waits : d.journal.failure = untold past) (act : Act) :
    Regular (past ++ d.troubles act) ∧ ((d.act act).observation ≠ .closed →
      (d.act act).journal.failure = untold (past ++ d.troubles act)) := by
  rcases Classical.em (act = .close) with rfl | goes_on
  · refine ⟨?_, fun open_then => absurd d.observation_close open_then⟩
    rw [troubles]
    split
    · exact regular.aborted
    · rw [List.append_nil]
      exact regular
  have arrives := regular.arrivals (d.errors act)
  have stored := untold_arrived past (d.errors act)
  rw [← waits] at stored
  rw [troubles_eq d goes_on, ← List.append_assoc]
  rcases Classical.em (act = .take) with rfl | leaves
  · obtain ⟨nothing, -, journal⟩ := d.after_take
    rw [nothing, Option.toList_none, List.map_nil, List.append_nil]
    refine ⟨arrives, fun _ => ?_⟩
    rw [stored, journal]
    rfl
  · rcases (course still_open goes_on leaves).1.failedSince with
      ⟨none_fails, failure⟩ | ⟨e, fails, failure, -, silent⟩
    · rw [none_fails, Option.toList_none, List.map_nil, List.append_nil]
      exact ⟨arrives, fun _ => failure.trans stored.symm⟩
    · rw [fails, Option.toList_some, List.map_singleton, untold_snoc]
      refine ⟨arrives.told (stored.trans failure), fun _ => ?_⟩
      exact (Journal.hasOutput_eq_false.mp silent).2.2

theorem regular_run {past : List Trouble} (regular : Regular past)
    (waits : d.observation ≠ .closed → d.journal.failure = untold past) (acts : List Act) :
    Regular (past ++ d.troublesOf acts) ∧ ((d.after acts).observation ≠ .closed →
      (d.after acts).journal.failure = untold (past ++ d.troublesOf acts)) := by
  induction acts generalizing d past with
  | nil =>
    rw [troublesOf, List.append_nil]
    exact ⟨regular, waits⟩
  | cons act rest ih =>
    rw [troublesOf, ← List.append_assoc]
    show _ ∧ (((d.act act).after rest).observation ≠ .closed → _)
    rcases Classical.em (d.observation = .closed) with closed | still_open
    · -- in a directory that is closed, nothing goes wrong any more
      have nothing : d.troubles act = [] ∧ (d.act act).observation = .closed := by
        rcases Classical.em (act = .take) with rfl | leaves
        · exact ⟨d.troubles_take, d.after_take.2.1.trans closed⟩
        · obtain ⟨same, none_goes_wrong⟩ := act_closed closed leaves
          exact ⟨none_goes_wrong, by rw [same, closed]⟩
      rw [nothing.1, List.append_nil]
      exact ih regular fun open_then => absurd nothing.2 open_then
    · obtain ⟨regular_then, waits_then⟩ := regular_act regular still_open (waits still_open) act
      exact ih regular_then waits_then

/-- Arrivals are no failures of reads. -/
theorem failures_of_troubles (errors : List BackendError) (failure : Option IoError) :
    (errors.map Trouble.arrived ++ failure.toList.map Trouble.told).filterMap Trouble.failure? =
      failure.toList := by
  induction errors with
  | nil => cases failure <;> rfl
  | cons x rest ih => exact ih

/-- What a read that is cut off fails with is not taken yet. -/
theorem unretrieved_close (still_open : d.observation ≠ .closed) :
    d.unretrieved ++ (d.troubles .close).filterMap Trouble.failure? =
      d.close.directory.unretrieved := by
  rw [troubles]
  by_cases armed : ∃ buffer signal, d.slot = .armed buffer signal
  · obtain ⟨buffer, signal, armed⟩ := armed
    rw [close_armed still_open armed, unretrieved, take, armed]
    rfl
  · have unarmed := close_unarmed still_open fun buffer signal slot => armed ⟨buffer, signal, slot⟩
    have same : d.close.directory.take.1 = d.take.1 := by
      rw [unarmed]
      exact take_congr rfl
    have nothing : d.close.answer = false := by rw [unarmed]
    rw [nothing, unretrieved, unretrieved, same]
    exact List.append_nil _

/-- What a read fails with is taken once: the errors that completions were taken with are those that
reads have failed with. -/
theorem retrieved_act (d : Directory) (act : Act) :
    d.unretrieved ++ (d.troubles act).filterMap Trouble.failure? =
      (d.completions act).filterMap Completion.error? ++ (d.act act).unretrieved := by
  rcases Classical.em (act = .take) with rfl | leaves
  · rw [troubles_take]
    obtain ⟨root, filter, j, slot, observation⟩ := d
    cases slot <;> rfl
  have none_taken : d.completions act = [] := by
    cases act with
    | take => exact absurd rfl leaves
    | _ => rfl
  rw [none_taken, List.filterMap_nil, List.nil_append]
  rcases Classical.em (d.observation = .closed) with closed | still_open
  · obtain ⟨same, nothing⟩ := act_closed closed leaves
    rw [same, nothing]
    exact List.append_nil _
  rcases Classical.em (act = .close) with rfl | goes_on
  · exact unretrieved_close still_open
  · rw [troubles_eq d goes_on, failures_of_troubles]
    exact (course still_open goes_on leaves).1.unretrieved.symm

theorem retrieved_run (d : Directory) (acts : List Act) :
    d.unretrieved ++ (d.troublesOf acts).filterMap Trouble.failure? =
      (d.completionsOf acts).filterMap Completion.error? ++ (d.after acts).unretrieved := by
  induction acts generalizing d with
  | nil => exact List.append_nil _
  | cons act rest ih =>
    rw [troublesOf, completionsOf, List.filterMap_append, List.filterMap_append,
      ← List.append_assoc, retrieved_act, List.append_assoc, ih, List.append_assoc]
    rfl

end Directory

namespace Chronicle

variable {room : Nat} {log : Chronicle} {d : Directory}

/-- When a read has failed and nothing waits, every change has been handed out, was too large or is
a loss that has been told. -/
theorem Matches.settled (h : log.Matches room d) (still_open : d.observation ≠ .closed)
    {e : IoError} (failed : d.take.1 = some (.failed e)) (silent : d.journal.hasOutput = false)
    {i : Nat} (made : i < log.made.length) : i ∈ log.handedOut ∨ log.Outgrown i ∨ log.Told i := by
  obtain ⟨nothing, told, -⟩ := Journal.hasOutput_eq_false.mp silent
  obtain ⟨⟨completion, numbers⟩, stored, completes⟩ :=
    Option.map_eq_some_iff.mp (h.stored.trans failed)
  obtain rfl : completion = .failed e := completes
  -- a read that has failed holds no changes, and none wait
  have none_waits : log.status.waiting = [] := by
    have waiting := h.waiting.length
    rw [nothing] at waiting
    exact List.length_eq_zero_iff.mp waiting
  have none_stored : numbers = [] :=
    List.length_eq_zero_iff.mp (h.sound.numbered.2 _ _ stored).length
  rcases h.sound.fate made with there | ⟨entry, mem, gone⟩
  · rw [current, ahead, storedNumbers_of_some stored, none_stored, none_waits, List.append_nil,
      List.append_nil] at there
    exact .inl there
  · cases entry with
    | kept c => exact absurd gone List.not_mem_nil
    | taken completion handed => exact absurd gone List.not_mem_nil
    | ended completion tooLarge handed =>
      obtain ⟨buffer, bytes, c, rfl, found, larger⟩ := h.sound.tooLarge mem gone
      exact .inr (.inl ⟨buffer, bytes, tooLarge, handed, c, mem, gone, found, larger⟩)
    | shut numbers =>
      have closed := (h.sound.shut mem gone).1
      rw [h.open_log still_open] at closed
      exact absurd closed Bool.noConfusion
    | lost cause numbers =>
      cases (h.sound.loss mem gone).2 with
      | untold untold =>
        rw [h.untold, told] at untold
        exact absurd untold Bool.noConfusion
      | ended buffer tells =>
        rw [stored] at tells
        exact absurd tells (by simp)
      | told told => exact .inr (.inr told)

end Chronicle

namespace History

theorem directory_run (h : History) (acts : List Directory.Act) :
    (h.run acts).directory = h.directory.after acts := by
  induction acts generalizing h with
  | nil => rfl
  | cons act rest ih => exact ih (h.step act)

/-- In every run of a directory: when a read fails for the backend's sake, there is nothing else to
tell, and the error is the one that has arrived last; if all buffers have less than 4 GiB, every
change that was made by then has been handed out, was too large for the buffer of the read that came
to it, or is a loss that a completion without bytes has told. As long as the directory is open, the
error that has arrived last waits, whatever else happens, unless a read has failed since. Each error
is told right behind its arrival, hence once; and what reads fail with is what completions are taken
with, in order, and at most one that is not taken yet. -/
theorem errors_wait (root : RawPath) (capacity : Nat) (acts : List Directory.Act) :
    let d := Directory.fresh root capacity
    (∀ act e, (d.after acts).failedWith act = some e →
      let h := (start root capacity).run (acts ++ [act])
      h.directory.journal.pending = [] ∧ h.directory.journal.overflowed = false ∧
        h.directory.journal.failure = none ∧ h.directory.take.1 = some (.failed e) ∧
        (∃ front x, d.troublesOf (acts ++ [act]) = front ++ [.arrived x, .told e] ∧ x.toIo = e) ∧
        ((∀ a ∈ acts ++ [act], a.Small) →
          h.log.made = d.arrivalsOf (acts ++ [act]) ∧
          h.log.Numbered h.log.handedOut
            ((d.completionsOf (acts ++ [act])).flatMap Completion.changes) ∧
          ∀ i < h.log.made.length, i ∈ h.log.handedOut ∨ h.log.Outgrown i ∨ h.log.Told i)) ∧
    ((d.after acts).observation ≠ .closed →
      (d.after acts).journal.failure = untold (d.troublesOf acts)) ∧
    (∀ front e back, d.troublesOf acts = front ++ .told e :: back →
      ∃ front' x, front = front' ++ [.arrived x] ∧ x.toIo = e) ∧
    (d.troublesOf acts).filterMap Trouble.failure? =
      (d.completionsOf acts).filterMap Completion.error? ++ (d.after acts).unretrieved := by
  intro d
  have regular (acts : List Directory.Act) := Directory.regular_run (d := d) Regular.nil
    (fun _ => rfl) acts
  refine ⟨?_, (regular acts).2, fun front e back => (regular acts).1.told_last,
    d.retrieved_run acts⟩
  intro act e fails h
  obtain ⟨goes_on, since, open_then, completion, silent⟩ := Directory.failed_read fails
  have ends : h.directory = (d.after acts).act act := by
    rw [directory_run, Directory.after_append]
    rfl
  rw [← ends] at open_then completion silent
  obtain ⟨nothing, kept, none_left⟩ := Journal.hasOutput_eq_false.mp silent
  refine ⟨nothing, kept, none_left, completion, ?_, ?_⟩
  · have told : d.troublesOf (acts ++ [act]) =
        (d.troublesOf acts ++ ((d.after acts).errors act).map .arrived) ++ .told e :: [] := by
      rw [Directory.troublesOf_append, Directory.troublesOf, Directory.troublesOf, List.append_nil,
        Directory.troubles_eq _ goes_on, since, List.append_assoc]
      rfl
    obtain ⟨front, x, behind, same⟩ := (regular (acts ++ [act])).1.told_last told
    have behind : d.troublesOf acts ++ ((d.after acts).errors act).map .arrived =
        front ++ [.arrived x] := behind
    refine ⟨front, x, ?_, same⟩
    rw [told, behind, List.append_assoc]
    rfl
  · intro small
    have matched := matches_run root capacity small
    refine ⟨made_run (start root capacity) (acts ++ [act]), ?_, fun i made =>
      matched.settled open_then completion silent made⟩
    rw [← show h.log.completions = d.completionsOf (acts ++ [act]) from
      completions_run (start root capacity) (acts ++ [act])]
    exact matched.sound.numbered.1

/-- The backend fails. -/
def breaks : Directory.Act := .deliver (fun _ => true) (.error ⟨.pathNotFound, []⟩)

/-- The backend has lost notices. -/
def rescans : Directory.Act := .deliver (fun _ => true) (.ok ⟨.create .file, [], true⟩)

/-- The first file is handed out. The second one waits when the backend fails, and is lost after
that, which a completion tells. -/
def brokenInBetween : List Directory.Act :=
  [reads, appears [97], .take, appears [98], breaks, rescans, reads, .take]

/-- The next read fails. -/
theorem errors_wait_brokenInBetween :
    ((Directory.fresh [47] 2).after brokenInBetween).failedWith reads =
        some (.raised .notFound "watched path not found") ∧
      (∀ act ∈ brokenInBetween ++ [reads], act.Small) ∧
      let h := (start [47] 2).run (brokenInBetween ++ [reads])
      h.directory.journal.pending = [] ∧ h.directory.journal.failure = none ∧
        (∃ front x, (Directory.fresh [47] 2).troublesOf (brokenInBetween ++ [reads]) =
          front ++ [.arrived x, .told (.raised .notFound "watched path not found")] ∧
          x.toIo = .raised .notFound "watched path not found") ∧
        ∀ i < h.log.made.length, i ∈ h.log.handedOut ∨ h.log.Outgrown i ∨ h.log.Told i := by
  have fails : ((Directory.fresh [47] 2).after brokenInBetween).failedWith reads =
      some (.raised .notFound "watched path not found") := by decide +kernel
  have small : ∀ act ∈ brokenInBetween ++ [reads], act.Small := by decide
  obtain ⟨nothing, -, none_left, -, told, settled⟩ :=
    (errors_wait [47] 2 brokenInBetween).1 reads _ fails
  exact ⟨fails, small, nothing, none_left, told, (settled small).2.2⟩

end History

end DirWatch
