import DirWatch.Proofs.Directory.Histories
import Mathlib.Data.List.Induction

/-!
# Chronicles agree with their directories

`Chronicle.Matches` says that the chronicle of a directory is sound and that the directory holds
what the chronicle says. Each operation keeps this, with the entries that it makes; so every run
does (`History.matches_run`).
-/

namespace DirWatch

namespace Chronicle

variable {room : Nat} {log : Chronicle}

/-- The chronicle agrees with what a directory holds. -/
structure Matches (room : Nat) (log : Chronicle) (d : Directory) : Prop where
  capacity : d.journal.capacity = room
  sound : log.Sound room
  journal : d.journal.Sound
  waiting : log.Numbered log.status.waiting d.journal.pending
  untold : log.status.untold = d.journal.overflowed
  stored : log.status.stored.map Prod.fst = d.take.1
  shut : log.status.shut = true ↔ d.observation = .closed
  small : ∀ buffer signal, d.slot = .armed buffer signal → buffer.size < UInt32.size

/-- A read that waits has nothing to tell. -/
def Silent (d : Directory) : Prop :=
  ∀ buffer signal, d.slot = .armed buffer signal → d.journal.hasOutput = false

variable {d : Directory}

theorem Matches.open_log (h : log.Matches room d) (still_open : d.observation ≠ .closed) :
    log.status.shut = false := by
  rw [← Bool.not_eq_true, h.shut]
  exact still_open

theorem Matches.none_stored (h : log.Matches room d) {buffer : Buffer} {signal : SignalName}
    (armed : d.slot = .armed buffer signal) : log.status.stored = none := by
  have none_taken : d.take.1 = none := by rw [Directory.take, armed]
  rw [← Option.map_eq_none_iff, h.stored, none_taken]

/-- With an entry that follows, the chronicle agrees with a directory that holds what the entry
leaves. -/
theorem Matches.snoc {d' : Directory} {e : Entry} (h : log.Matches room d)
    (follows : Follows room log e) (capacity : d'.journal.capacity = d.journal.capacity)
    (journal : d'.journal.Sound)
    (waiting : (log ++ [e]).Numbered (log.status.after e).waiting d'.journal.pending)
    (untold : (log.status.after e).untold = d'.journal.overflowed)
    (stored : (log.status.after e).stored.map Prod.fst = d'.take.1)
    (shut : (log.status.after e).shut = true ↔ d'.observation = .closed)
    (small : ∀ buffer signal, d'.slot = .armed buffer signal → buffer.size < UInt32.size) :
    (log ++ [e]).Matches room d' := by
  rw [← status_snoc] at waiting untold stored shut
  exact ⟨capacity.trans h.capacity, h.sound.snoc follows, journal, waiting, untold, stored, shut,
    small⟩

/-! ## What enters the journal -/

/-- A change waits behind the others. -/
theorem Matches.kept (h : log.Matches room d) (still_open : d.observation ≠ .closed) {c : Change}
    {j : Journal} (capacity : j.capacity = d.journal.capacity) (named : c.Named)
    (told : d.journal.overflowed = false) (kept : j.overflowed = false)
    (pending : j.pending = d.journal.pending ++ [c]) :
    (log ++ [Entry.kept c]).Matches room { d with journal := j } := by
  have follows : Follows room log (.kept c) := .kept (h.open_log still_open) (h.untold.trans told)
  have sound : j.Sound := by
    refine ⟨fun c' hc => ?_, fun lost => ?_⟩
    · rw [pending] at hc
      rcases List.mem_append.mp hc with old | new
      · exact h.journal.named c' old
      · rwa [List.mem_singleton.mp new]
    · rw [kept] at lost
      exact absurd lost Bool.false_ne_true
  have number : (log ++ [Entry.kept c]).Numbered [log.status.next] [c] := by
    rw [Numbered, List.map_singleton, made_snoc, status_next,
      List.getElem?_append_right (Nat.le_refl _), Nat.sub_self]
    rfl
  refine h.snoc follows capacity sound ?_ ?_ (h.stored.trans (Directory.take_congr rfl)) h.shut
    h.small
  · rw [pending]
    exact (h.waiting.snoc _).append number
  · rw [kept]
    exact h.untold.trans told

/-- All that waits is lost. -/
theorem Matches.lose (h : log.Matches room d) (still_open : d.observation ≠ .closed) (cause : Cause)
    {j : Journal} (capacity : j.capacity = d.journal.capacity)
    (causes : cause.isOverflow = false → d.journal.overflowed = true)
    (full : ∀ c, cause = .full c → d.journal.capacity ≤ d.journal.pending.length)
    (lost : j.overflowed = true) (empty : j.pending = []) :
    (log ++ [log.lose cause]).Matches room { d with journal := j } := by
  have follows : Follows room log (log.lose cause) := by
    refine .lost (h.open_log still_open) (fun follows => h.untold.trans (causes follows)) ?_
    intro c is_full
    rw [h.waiting.length, ← h.capacity]
    exact full c is_full
  refine h.snoc follows capacity ⟨fun c hc => ?_, fun _ => empty⟩ ?_ lost.symm
    (h.stored.trans (Directory.take_congr rfl)) h.shut h.small
  · rw [empty] at hc
    exact absurd hc List.not_mem_nil
  · rw [empty]
    rfl

theorem Matches.enter (h : log.Matches room d) (still_open : d.observation ≠ .closed)
    (present : RawPath → Bool) (delivery : Delivery) :
    (log ++ d.enterEntries present log delivery).Matches room (d.enter present delivery) := by
  cases delivery with
  | error e =>
    rw [show d.enterEntries present log (.error e) = [] from rfl, List.append_nil]
    refine ⟨h.capacity, h.sound, h.journal.fail e.toIo, h.waiting, h.untold, ?_, h.shut, h.small⟩
    exact h.stored.trans (Directory.take_congr rfl)
  | ok notice =>
    rw [Directory.enterEntries, Directory.enter]
    split
    · exact h.lose still_open .rescan rfl (fun follows => by simp [Cause.isOverflow] at follows)
        (fun c is_full => by simp at is_full) rfl rfl
    · cases found : notice.change? present d.root d.filter with
      | none =>
        simp only [List.append_nil]
        exact h
      | some c =>
        simp only
        split
        · next untold =>
          -- an overflowed journal takes nothing in
          have same : d.journal.push c = d.journal := by rw [Journal.push, if_pos untold]
          rw [same]
          exact h.lose still_open (.untold c) rfl (fun _ => untold)
            (fun c is_full => by simp at is_full) untold (h.journal.emptied untold)
        · split
          · next told lost =>
            have sound := h.journal.push (Notice.change?_named found)
            have told : d.journal.overflowed = false := by simpa using told
            exact h.lose still_open (.full c) (d.journal.push_capacity c)
              (fun follows => by simp [Cause.isOverflow] at follows)
              (fun _ _ => Journal.push_full told lost) lost (sound.emptied lost)
          · next told kept =>
            have kept : (d.journal.push c).overflowed = false := by simpa using kept
            obtain ⟨told, pending⟩ := Journal.push_kept kept
            exact h.kept still_open (d.journal.push_capacity c) (Notice.change?_named found) told
              kept pending

theorem Matches.enterAll (h : log.Matches room d) (still_open : d.observation ≠ .closed)
    (present : RawPath → Bool) (deliveries : List Delivery) :
    (log ++ d.enterAllEntries present log deliveries).Matches room
      (d.enterAll present deliveries) := by
  induction deliveries generalizing log d with
  | nil =>
    rw [show d.enterAllEntries present log [] = [] from rfl, List.append_nil]
    exact h
  | cons delivery rest ih =>
    have open_after : (d.enter present delivery).observation ≠ .closed := by
      rw [Directory.enter_eq]
      exact still_open
    have all := ih (h.enter still_open present delivery) open_after
    rw [List.append_assoc] at all
    exact all

/-! ## Reads -/

theorem Matches.settle (h : log.Matches room d) (still_open : d.observation ≠ .closed) :
    (log ++ d.settleEntries log).Matches room d.settle.directory ∧ Silent d.settle.directory := by
  obtain ⟨buffer, signal, armed, output, settled⟩ | ⟨silent, settled⟩ := d.settle_cases
  · rw [settled, Directory.settleEntries, armed]
    simp only [output, if_true]
    obtain ⟨content, left, completes, tells⟩ :=
      h.journal.complete_parts buffer (h.small buffer signal armed)
    have numbers := h.waiting
    rw [Journal.parts buffer.size d.journal.pending] at numbers
    obtain ⟨large, others⟩ := numbers.split
    obtain ⟨handed, rest⟩ := others.split
    have front := List.take_append_drop
      (Journal.oversized buffer.size d.journal.pending).length log.status.waiting
    rw [← List.take_append_drop (Journal.handed buffer.size d.journal.pending).length
      (log.status.waiting.drop _)] at front
    -- the numbers that wait fall into the same three parts as the changes do
    have follows : Follows room log (.ended (d.journal.complete buffer).1
        (log.status.waiting.take (Journal.oversized buffer.size d.journal.pending).length)
        ((log.status.waiting.drop (Journal.oversized buffer.size d.journal.pending).length).take
          (Journal.handed buffer.size d.journal.pending).length)) := by
      refine .ended (h.open_log still_open) (h.none_stored armed) front.symm ?_ ?_ ?_
      · intro i hi
        obtain ⟨c, oversized, found⟩ := large.mem hi
        obtain ⟨filled, bytes, completed, size⟩ := completes fun none_waits => by
          simp [none_waits, Journal.oversized] at oversized
        refine ⟨filled, bytes, c, completed, found, ?_⟩
        rw [size]
        exact Journal.lt_recordSize_of_mem_oversized oversized
      · rw [content]
        exact handed
      · intro lost
        have empty := h.sound.untold_waiting lost
        refine ⟨buffer, tells (h.untold.symm.trans lost), ?_, ?_⟩
        · rw [empty, List.take_nil]
        · rw [empty, List.drop_nil, List.take_nil]
    refine ⟨h.snoc follows (d.journal.complete_capacity buffer) (h.journal.complete buffer) ?_
      (Journal.complete_pending_suffix d.journal buffer).2.symm rfl h.shut ?_, ?_⟩
    · rw [left]
      simp only [Status.after, large.length, handed.length]
      rw [← List.drop_drop]
      exact rest.snoc _
    · intro buffer' signal' armed'
      simp at armed'
    · intro buffer' signal' armed'
      simp at armed'
  · have no_entry : d.settleEntries log = [] := by
      rw [Directory.settleEntries]
      split
      · next buffer signal armed => rw [if_neg (by simp [silent buffer signal armed])]
      · rfl
    rw [settled, no_entry, List.append_nil]
    exact ⟨h, silent⟩

theorem Matches.deliver (h : log.Matches room d) (silent : Silent d) (present : RawPath → Bool)
    (delivery : Delivery) :
    (log ++ d.entries log (.deliver present delivery)).Matches room
        (d.act (.deliver present delivery)) ∧
      Silent (d.act (.deliver present delivery)) := by
  rw [Directory.entries, Directory.act, Directory.record]
  split
  · rw [List.append_nil]
    exact ⟨h, silent⟩
  · next still_open =>
    have open_after : (d.enter present delivery).observation ≠ .closed := by
      rw [Directory.enter_eq]
      exact still_open
    have settled := (h.enter still_open present delivery).settle open_after
    rw [List.append_assoc] at settled
    exact settled

theorem Matches.arm (h : log.Matches room d) (idle : d.slot = .idle)
    (still_open : d.observation ≠ .closed) {buffer : Buffer} (small : buffer.size < UInt32.size)
    (signal : SignalName) {o : Observation} (observed : o ≠ .closed) :
    log.Matches room { d with slot := .armed buffer signal, observation := o } := by
  refine ⟨h.capacity, h.sound, h.journal, h.waiting, h.untold, ?_, ?_, ?_⟩
  · rw [h.stored, Directory.take, idle]
    rfl
  · rw [h.shut]
    simp [still_open, observed]
  · intro buffer' signal' armed
    cases armed
    exact small

/-- Only the class of changes that it asks for is left of a read that is refused. -/
theorem Matches.asked (h : log.Matches room d) (filter : Filter) :
    log.Matches room { d with filter } :=
  ⟨h.capacity, h.sound, h.journal, h.waiting, h.untold, h.stored.trans (Directory.take_congr rfl),
    h.shut, h.small⟩

theorem Matches.read (h : log.Matches room d) (silent : Silent d) (host : Host) {buffer : Buffer}
    (small : buffer.size < UInt32.size) (subtree : Bool) (filter : Filter) (signal : SignalName) :
    (log ++ d.entries log (.read host buffer subtree filter signal)).Matches room
        (d.act (.read host buffer subtree filter signal)) ∧
      Silent (d.act (.read host buffer subtree filter signal)) := by
  rw [Directory.entries, Directory.act]
  rcases d.read_cases host buffer subtree filter signal with
    ⟨e, refused, same | same⟩ | ⟨not_closed, idle, accepted, subtree', same⟩
  · rw [refused, same]
    simp only [List.append_nil]
    exact ⟨h, silent⟩
  · rw [refused, same]
    simp only [List.append_nil]
    exact ⟨h.asked filter, silent⟩
  · rw [accepted, same]
    have asked := h.asked filter
    have entered := asked.enterAll not_closed host.tree.pathExists (d.deliveredAtOnce host)
    have rest :=
      Directory.enterAll_eq host.tree.pathExists { d with filter } (d.deliveredAtOnce host)
    have waits := entered.arm (by rw [rest]; exact idle) (by rw [rest]; exact not_closed) small
      signal (o := .observing subtree') (by simp)
    have settled := waits.settle (by simp)
    rw [List.append_assoc] at settled
    exact settled

theorem Matches.take (h : log.Matches room d) (silent : Silent d) :
    (log ++ d.entries log .take).Matches room (d.act .take) ∧ Silent (d.act .take) := by
  have stored := h.stored
  rw [Directory.entries, Directory.act]
  rw [Directory.take] at stored ⊢
  split at stored
  · next completion finished =>
    obtain ⟨⟨completion', numbers⟩, stored_here, rfl⟩ := Option.map_eq_some_iff.mp stored
    rw [storedNumbers_of_some stored_here]
    have follows : Follows room log (.taken completion' numbers) := .taken stored_here
    refine ⟨h.snoc follows rfl h.journal (h.waiting.snoc _) h.untold rfl h.shut ?_, ?_⟩
    · intro buffer signal armed
      simp at armed
    · intro buffer signal armed
      simp at armed
  · simp only [List.append_nil]
    exact ⟨h, silent⟩

/-! ## Closing -/

/-- A read that waits ends when the directory is closed. -/
theorem Matches.abort (h : log.Matches room d) (still_open : d.observation ≠ .closed)
    (silent : Silent d) {buffer : Buffer} {signal : SignalName}
    (armed : d.slot = .armed buffer signal) :
    (log ++ [Entry.ended (.failed Directory.abortedError) [] []]).Matches room
      { d with slot := .finished (.failed Directory.abortedError) } := by
  have kept := (Journal.hasOutput_eq_false.mp (silent buffer signal armed)).2.1
  have follows : Follows room log (.ended (.failed Directory.abortedError) [] []) := by
    refine .ended (h.open_log still_open) (h.none_stored armed) rfl ?_ rfl fun lost => ?_
    · intro i hi
      simp at hi
    · rw [h.untold, kept] at lost
      exact absurd lost Bool.false_ne_true
  refine h.snoc follows rfl h.journal (h.waiting.snoc _) kept.symm rfl h.shut ?_
  intro buffer' signal' armed'
  simp at armed'

/-- What waits is given up when the directory is closed. -/
theorem Matches.shutDown (h : log.Matches room d) :
    (log ++ [Entry.shut log.status.waiting]).Matches room
      { d with observation := .closed, journal := { d.journal with pending := [] } } := by
  refine h.snoc .shut rfl ⟨fun c hc => ?_, fun _ => rfl⟩ rfl h.untold
    (h.stored.trans (Directory.take_congr rfl)) ?_ h.small
  · exact absurd hc List.not_mem_nil
  · simp [Status.after]

theorem Matches.close (h : log.Matches room d) (silent : Silent d) :
    (log ++ d.entries log .close).Matches room (d.act .close) ∧ Silent (d.act .close) := by
  rw [Directory.entries, Directory.act]
  split
  · next closed =>
    rw [Directory.close, if_pos closed, List.append_nil]
    exact ⟨h, silent⟩
  · next still_open =>
    split
    · next buffer signal armed =>
      have closed := (h.abort still_open silent armed).shutDown
      rw [status_snoc, List.append_assoc] at closed
      rw [Directory.close_armed still_open armed]
      refine ⟨closed, fun buffer' signal' armed' => ?_⟩
      simp at armed'
    · next unarmed =>
      rw [Directory.close_unarmed still_open unarmed]
      exact ⟨h.shutDown, fun buffer signal armed => absurd armed (unarmed buffer signal)⟩

end Chronicle

/-! ## Runs -/

namespace History

variable {h : History} {act : Directory.Act} {acts : List Directory.Act} {room : Nat}

theorem matches_step (small : act.Small)
    (before : h.log.Matches room h.directory ∧ Chronicle.Silent h.directory) :
    (h.step act).log.Matches room (h.step act).directory ∧
      Chronicle.Silent (h.step act).directory := by
  obtain ⟨matched, silent⟩ := before
  cases act with
  | deliver present delivery => exact matched.deliver silent present delivery
  | read host buffer subtree filter signal =>
    exact matched.read silent host small subtree filter signal
  | take => exact matched.take silent
  | close => exact matched.close silent

/-- The chronicle of every run is sound and agrees with the directory. -/
theorem matches_run (root : RawPath) (capacity : Nat) (small : ∀ act ∈ acts, act.Small) :
    ((start root capacity).run acts).log.Matches (max 1 capacity)
      ((start root capacity).run acts).directory := by
  -- a read that waits must be silent, or closing would tell nothing of a loss
  suffices both : ((start root capacity).run acts).log.Matches (max 1 capacity)
        ((start root capacity).run acts).directory ∧
      Chronicle.Silent ((start root capacity).run acts).directory from both.1
  induction acts using List.reverseRecOn with
  | nil =>
    refine ⟨⟨rfl, .nil, Journal.sound_empty capacity, rfl, rfl, rfl, ?_, ?_⟩, ?_⟩
    · simp [start, run, Chronicle.status, Directory.fresh]
    · intro buffer signal armed
      simp [start, run, Directory.fresh] at armed
    · intro buffer signal armed
      simp [start, run, Directory.fresh] at armed
  | append_singleton acts act ih =>
    rw [run_append]
    refine matches_step (small act (by simp)) (ih fun act' mem => small act' ?_)
    exact List.mem_append_left _ mem

end History

end DirWatch
