import DirWatch.Proofs.Directory.Histories

/-!
# A directory with two places for its read

`SplitDirectory` keeps the read that waits and the completion that is ready in places of their own,
so that nothing keeps it from having both, from ending a read twice or from putting a completion in
the place of another one. It never does: to whoever uses it, it cannot be told from a `Directory`,
which has one place for both (`SplitDirectory.Shows.act`).
-/

namespace DirWatch

/-- Enters what the backend delivers. -/
def Journal.enter (present : RawPath → Bool) (root : RawPath) (filter : Filter) (j : Journal) :
    Delivery → Journal
  | .error e => j.fail e.toIo
  | .ok notice =>
    if notice.rescan then j.overflow
    else
      match notice.change? present root filter with
      | none => j
      | some c => j.push c

namespace Directory

theorem enter_journal (present : RawPath → Bool) (d : Directory) (delivery : Delivery) :
    d.enter present delivery =
      { d with journal := d.journal.enter present d.root d.filter delivery } := by
  cases delivery with
  | error e => rfl
  | ok notice =>
    rw [enter, Journal.enter]
    by_cases rescan : notice.rescan
    · rw [if_pos rescan, if_pos rescan]
    · rw [if_neg rescan, if_neg rescan]
      cases notice.change? present d.root d.filter <;> rfl

theorem enterAll_journal (present : RawPath → Bool) (d : Directory) (deliveries : List Delivery) :
    d.enterAll present deliveries =
      { d with journal := deliveries.foldl (Journal.enter present d.root d.filter) d.journal } := by
  induction deliveries generalizing d with
  | nil => rfl
  | cons delivery rest ih =>
    show (d.enter present delivery).enterAll present rest = _
    rw [ih, enter_journal]
    rfl

/-- The directory after some acts. -/
def after (d : Directory) (acts : List Act) : Directory := acts.foldl act d

theorem after_append (d : Directory) (acts more : List Act) :
    d.after (acts ++ more) = (d.after acts).after more := List.foldl_append

/-- What an act tells its caller. -/
inductive Answer where
  | nothing
  | read (answer : Except IoError Unit)
  | taken (completion : Option Completion)
  | closed (aborted : Bool)

/-- What can be seen of an act: its answer and the signal that it raises. -/
structure Reply where
  answer : Answer
  raised : Option SignalName

def reply (d : Directory) : Act → Reply
  | .deliver present delivery => ⟨.nothing, (d.record present delivery).raised⟩
  | .read host buffer subtree filter signal =>
    ⟨.read (d.read host buffer subtree filter signal).1.answer,
      (d.read host buffer subtree filter signal).1.raised⟩
  | .take => ⟨.taken d.take.1, none⟩
  | .close => ⟨.closed d.close.answer, d.close.raised⟩

def replies (d : Directory) : List Act → List Reply
  | [] => []
  | act :: rest => d.reply act :: (d.act act).replies rest

end Directory

/-- A directory that keeps what becomes of a read in two places. -/
structure SplitDirectory where
  root : RawPath
  filter : Filter
  journal : Journal
  /-- The read that waits, with its signal. -/
  armed : Option (Buffer × SignalName)
  /-- The completion that is ready. -/
  completed : Option Completion
  closed : Bool
  watching : Bool

namespace SplitDirectory

open Directory (Act Reply)

def fresh (root : RawPath) (capacity : Nat) : SplitDirectory :=
  ⟨root, .empty, .empty capacity, none, none, false, false⟩

/-- Ends the read that waits, if one does, whatever else is ready. -/
def completeArmed (s : SplitDirectory) : SplitDirectory × Option SignalName :=
  match s.armed with
  | none => (s, none)
  | some (buffer, signal) =>
    let (completion, journal) := s.journal.complete buffer
    ({ s with journal, armed := none, completed := some completion }, some signal)

def abortArmed (s : SplitDirectory) : SplitDirectory × Option SignalName :=
  match s.armed with
  | none => (s, none)
  | some (_, signal) =>
    ({ s with armed := none, completed := some (.failed Directory.abortedError) }, some signal)

def record (present : RawPath → Bool) (s : SplitDirectory) (delivery : Delivery) :
    SplitDirectory × Option SignalName :=
  if s.closed then (s, none)
  else
    let entered := { s with journal := s.journal.enter present s.root s.filter delivery }
    if entered.armed.isSome && entered.journal.hasOutput then entered.completeArmed
    else (entered, none)

/-- Has the backend observe the directory; what it delivers meanwhile is recorded. -/
def watch (s : SplitDirectory) (host : Host) : Except IoError SplitDirectory :=
  if s.watching then .ok s
  else
    match host.observe s.root with
    | (.error e, _) => .error e.toIo
    | (.ok deliveries, host) =>
      let recorded := deliveries.foldl (fun s delivery =>
        (s.record host.tree.pathExists delivery).1) s
      .ok { recorded with watching := true }

/-- Has a read wait, unless there is something to tell. -/
def arm (s : SplitDirectory) (buffer : Buffer) (signal : SignalName) :
    SplitDirectory × Option SignalName :=
  if s.journal.hasOutput then { s with armed := some (buffer, signal) }.completeArmed
  else ({ s with armed := some (buffer, signal) }, none)

def read (s : SplitDirectory) (host : Host) (buffer : Buffer) (filter : Filter)
    (signal : SignalName) : SplitDirectory × Except IoError Unit × Option SignalName :=
  if s.closed then (s, .error Directory.closedError, none)
  else if s.armed.isSome || s.completed.isSome then (s, .error Directory.busyError, none)
  else
    match { s with filter }.watch host with
    | .error e => ({ s with filter }, .error e, none)
    | .ok watched => ((watched.arm buffer signal).1, .ok (), (watched.arm buffer signal).2)

/-- A directory that takes no more, with a read that may still wait. -/
def shut (s : SplitDirectory) : SplitDirectory :=
  { s with closed := true, journal := { s.journal with pending := [] } }

def close (s : SplitDirectory) : SplitDirectory × Bool × Option SignalName :=
  if s.closed then (s, false, none)
  else (s.shut.abortArmed.1, s.armed.isSome, s.shut.abortArmed.2)

def act (s : SplitDirectory) : Act → SplitDirectory × Reply
  | .deliver present delivery =>
    ((s.record present delivery).1, ⟨.nothing, (s.record present delivery).2⟩)
  | .read host buffer _ filter signal =>
    let (read, answer, raised) := s.read host buffer filter signal
    (read, ⟨.read answer, raised⟩)
  | .take => ({ s with completed := none }, ⟨.taken s.completed, none⟩)
  | .close =>
    let (closed, aborted, raised) := s.close
    (closed, ⟨.closed aborted, raised⟩)

def after (s : SplitDirectory) (acts : List Act) : SplitDirectory :=
  acts.foldl (fun s act => (s.act act).1) s

def replies (s : SplitDirectory) : List Act → List Reply
  | [] => []
  | act :: rest => (s.act act).2 :: (s.act act).1.replies rest

/-! ## The same directory -/

/-- What stands in the two places for what stands in the one. -/
def places : ReadSlot → Option (Buffer × SignalName) × Option Completion
  | .idle => (none, none)
  | .armed buffer signal => (some (buffer, signal), none)
  | .finished completion => (none, some completion)

/-- The two have the same in them. -/
structure Shows (s : SplitDirectory) (d : Directory) : Prop where
  root : s.root = d.root
  filter : s.filter = d.filter
  journal : s.journal = d.journal
  places : (s.armed, s.completed) = places d.slot
  closed : s.closed = true ↔ d.observation = .closed
  watching : d.observation ≠ .closed → (s.watching = true ↔ d.observation ≠ .idle)

variable {s : SplitDirectory} {d : Directory} {present : RawPath → Bool}

theorem shows_fresh (root : RawPath) (capacity : Nat) :
    Shows (fresh root capacity) (.fresh root capacity) where
  root := rfl
  filter := rfl
  journal := rfl
  places := rfl
  closed := by simp [fresh, Directory.fresh]
  watching := by simp [fresh, Directory.fresh]

theorem Shows.of_idle (h : Shows s d) (idle : d.slot = .idle) :
    s.armed = none ∧ s.completed = none :=
  Prod.mk.inj (h.places.trans (congrArg SplitDirectory.places idle))

theorem Shows.of_armed (h : Shows s d) {buffer : Buffer} {signal : SignalName}
    (armed : d.slot = .armed buffer signal) :
    s.armed = some (buffer, signal) ∧ s.completed = none :=
  Prod.mk.inj (h.places.trans (congrArg SplitDirectory.places armed))

theorem Shows.of_finished (h : Shows s d) {completion : Completion}
    (finished : d.slot = .finished completion) :
    s.armed = none ∧ s.completed = some completion :=
  Prod.mk.inj (h.places.trans (congrArg SplitDirectory.places finished))

/-- One of the two places is empty. -/
theorem Shows.apart (h : Shows s d) : s.armed = none ∨ s.completed = none := by
  cases slot : d.slot with
  | idle => exact .inl (h.of_idle slot).1
  | armed buffer signal => exact .inr (h.of_armed slot).2
  | finished completion => exact .inl (h.of_finished slot).1

theorem Shows.unarmed (h : Shows s d) (unarmed : ∀ buffer signal, d.slot ≠ .armed buffer signal) :
    s.armed = none := by
  cases slot : d.slot with
  | idle => exact (h.of_idle slot).1
  | armed buffer signal => exact absurd slot (unarmed buffer signal)
  | finished completion => exact (h.of_finished slot).1

/-- A read that waits ends in both, or in neither. -/
theorem Shows.settle (h : Shows s d) :
    (if s.armed.isSome && s.journal.hasOutput then s.completeArmed else (s, none)).2 =
        d.settle.raised ∧
      Shows (if s.armed.isSome && s.journal.hasOutput then s.completeArmed else (s, none)).1
        d.settle.directory := by
  rcases d.settle_cases with ⟨buffer, signal, armed, output, settles⟩ | ⟨silent, settles⟩
  · rw [settles, completeArmed, (h.of_armed armed).1, h.journal, output]
    exact ⟨rfl, h.root, h.filter, rfl, rfl, h.closed, h.watching⟩
  · have stays : (s.armed.isSome && s.journal.hasOutput) = false := by
      cases slot : d.slot with
      | armed buffer signal => rw [h.journal, silent buffer signal slot, Bool.and_false]
      | idle => rw [(h.of_idle slot).1, Option.isSome_none, Bool.false_and]
      | finished completion => rw [(h.of_finished slot).1, Option.isSome_none, Bool.false_and]
    rw [settles, stays]
    exact ⟨rfl, h⟩

theorem Shows.record (h : Shows s d) (present : RawPath → Bool) (delivery : Delivery) :
    (s.record present delivery).2 = (d.record present delivery).raised ∧
      Shows (s.record present delivery).1 (d.record present delivery).directory := by
  rw [SplitDirectory.record, Directory.record]
  by_cases closed : d.observation = .closed
  · rw [if_pos closed, if_pos (h.closed.mpr closed)]
    exact ⟨rfl, h⟩
  · rw [if_neg closed, if_neg fun shut => closed (h.closed.mp shut), Directory.enter_journal]
    apply Shows.settle (s := { s with journal := s.journal.enter present s.root s.filter delivery })
    refine ⟨h.root, h.filter, ?_, h.places, h.closed, h.watching⟩
    show s.journal.enter present s.root s.filter delivery = _
    rw [h.root, h.filter, h.journal]

/-- As long as no read waits, deliveries only go into the journal. -/
theorem recordAll_unarmed (unarmed : s.armed = none) (open_ : s.closed = false)
    (deliveries : List Delivery) :
    deliveries.foldl (fun s delivery => (s.record present delivery).1) s =
      { s with
        journal := deliveries.foldl (Journal.enter present s.root s.filter) s.journal } := by
  induction deliveries generalizing s with
  | nil => rfl
  | cons delivery rest ih =>
    have recorded : (s.record present delivery).1 =
        { s with journal := s.journal.enter present s.root s.filter delivery } := by
      rw [SplitDirectory.record, open_, unarmed]
      rfl
    rw [List.foldl_cons, recorded]
    exact ih (s := { s with journal := s.journal.enter present s.root s.filter delivery })
      unarmed open_

/-- The backend is asked by both, or by neither, and refuses both or none. -/
theorem Shows.watch (h : Shows s d) (not_closed : d.observation ≠ .closed) (idle : d.slot = .idle)
    (host : Host) (subtree : Bool) :
    (∃ e, s.watch host = .error e ∧ (d.observe host subtree).1 = .error e) ∨
    ∃ s' d', s.watch host = .ok s' ∧ (d.observe host subtree).1 = .ok d' ∧ Shows s' d' ∧
      s'.completed = none := by
  obtain ⟨unarmed, uncompleted⟩ := h.of_idle idle
  have open_ : s.closed = false := by
    rw [← Bool.not_eq_true]
    exact fun shut => not_closed (h.closed.mp shut)
  have watching := h.watching not_closed
  rw [SplitDirectory.watch, Directory.observe, h.root]
  cases observation : d.observation with
  | closed => exact absurd observation not_closed
  | observing subtree' =>
    rw [if_pos (watching.mpr (by simp [observation]))]
    exact .inr ⟨s, d, rfl, rfl, h, uncompleted⟩
  | idle =>
    rw [if_neg fun on => watching.mp on observation]
    rcases host.observe d.root with ⟨e | deliveries, host'⟩
    · exact .inl ⟨e.toIo, rfl, rfl⟩
    · refine .inr ⟨_, _, rfl, rfl, ?_⟩
      rw [recordAll_unarmed unarmed open_, Directory.enterAll_journal]
      refine ⟨?_, uncompleted⟩
      refine ⟨h.root, h.filter, ?_, h.places, ?_, ?_⟩
      · show deliveries.foldl (Journal.enter _ s.root s.filter) s.journal = _
        rw [h.root, h.filter, h.journal]
      · simp [open_]
      · simp

theorem Shows.arm (h : Shows s d) (uncompleted : s.completed = none) (buffer : Buffer)
    (signal : SignalName) :
    (s.arm buffer signal).2 = ({ d with slot := .armed buffer signal } : Directory).settle.raised ∧
      Shows (s.arm buffer signal).1
        ({ d with slot := .armed buffer signal } : Directory).settle.directory := by
  have armed : Shows { s with armed := some (buffer, signal) }
      { d with slot := .armed buffer signal } := by
    refine ⟨h.root, h.filter, h.journal, ?_, h.closed, h.watching⟩
    show (some (buffer, signal), s.completed) = _
    rw [uncompleted]
    rfl
  exact armed.settle

theorem Shows.read (h : Shows s d) (host : Host) (buffer : Buffer) (subtree : Bool)
    (filter : Filter) (signal : SignalName) :
    (s.read host buffer filter signal).2 =
        ((d.read host buffer subtree filter signal).1.answer,
          (d.read host buffer subtree filter signal).1.raised) ∧
      Shows (s.read host buffer filter signal).1
        (d.read host buffer subtree filter signal).1.directory := by
  rw [SplitDirectory.read]
  by_cases closed : d.observation = .closed
  · rw [Directory.read, if_pos closed, if_pos (h.closed.mpr closed)]
    exact ⟨rfl, h⟩
  rw [if_neg fun shut => closed (h.closed.mp shut)]
  by_cases idle : d.slot = .idle
  · obtain ⟨unarmed, uncompleted⟩ := h.of_idle idle
    have asked : Shows { s with filter } { d with filter } :=
      ⟨h.root, rfl, h.journal, h.places, h.closed, h.watching⟩
    have free : ¬ (s.armed.isSome || s.completed.isSome) = true := by
      rw [unarmed, uncompleted]
      exact Bool.false_ne_true
    rw [Directory.read_idle closed idle, if_neg free]
    rcases asked.watch closed idle host subtree with
      ⟨e, refused, refused'⟩ | ⟨s', d', watched, watched', shows, uncompleted'⟩
    · rw [refused]
      generalize ({ d with filter } : Directory).observe host subtree = observes at refused' ⊢
      obtain ⟨answer, host'⟩ := observes
      obtain rfl : answer = .error e := refused'
      exact ⟨rfl, asked⟩
    · rw [watched]
      generalize ({ d with filter } : Directory).observe host subtree = observes at watched' ⊢
      obtain ⟨answer, host'⟩ := observes
      obtain rfl : answer = .ok d' := watched'
      obtain ⟨raised, armed⟩ := shows.arm uncompleted' buffer signal
      exact ⟨congrArg (Prod.mk _) raised, armed⟩
  · have busy : (s.armed.isSome || s.completed.isSome) = true := by
      cases slot : d.slot with
      | idle => exact absurd slot idle
      | armed buffer' signal' => rw [(h.of_armed slot).1, Option.isSome_some, Bool.true_or]
      | finished completion => rw [(h.of_finished slot).2, Option.isSome_some, Bool.or_true]
    rw [Directory.read_busy closed idle, if_pos busy]
    exact ⟨rfl, h⟩

theorem Shows.take (h : Shows s d) :
    s.completed = d.take.1 ∧ Shows { s with completed := none } d.take.2 := by
  rw [Directory.take]
  cases slot : d.slot with
  | finished completion =>
    obtain ⟨unarmed, completed⟩ := h.of_finished slot
    refine ⟨completed, h.root, h.filter, h.journal, ?_, h.closed, h.watching⟩
    rw [unarmed]
    rfl
  | idle =>
    obtain ⟨unarmed, uncompleted⟩ := h.of_idle slot
    refine ⟨uncompleted, h.root, h.filter, h.journal, ?_, h.closed, h.watching⟩
    rw [unarmed, slot]
    rfl
  | armed buffer signal =>
    obtain ⟨armed, uncompleted⟩ := h.of_armed slot
    refine ⟨uncompleted, h.root, h.filter, h.journal, ?_, h.closed, h.watching⟩
    rw [armed, slot]
    rfl

theorem abortArmed_armed {buffer : Buffer} {signal : SignalName}
    (armed : s.armed = some (buffer, signal)) :
    s.abortArmed = ({ s with armed := none, completed := some (.failed Directory.abortedError) },
      some signal) := by
  rw [abortArmed, armed]

theorem abortArmed_unarmed (unarmed : s.armed = none) : s.abortArmed = (s, none) := by
  rw [abortArmed, unarmed]

theorem Shows.close (h : Shows s d) :
    s.close.2 = (d.close.answer, d.close.raised) ∧ Shows s.close.1 d.close.directory := by
  rw [SplitDirectory.close]
  by_cases closed : d.observation = .closed
  · rw [Directory.close, if_pos closed, if_pos (h.closed.mpr closed)]
    exact ⟨rfl, h⟩
  rw [if_neg fun shut => closed (h.closed.mp shut)]
  have journal : s.shut.journal = { d.journal with pending := [] } :=
    congrArg (fun j : Journal => { j with pending := [] }) h.journal
  by_cases waits : ∃ buffer signal, d.slot = .armed buffer signal
  · obtain ⟨buffer, signal, slot⟩ := waits
    have armed := (h.of_armed slot).1
    rw [Directory.close_armed closed slot, abortArmed_armed (s := s.shut) armed, armed]
    exact ⟨rfl, h.root, h.filter, journal, rfl, by simp [shut], fun open_ => absurd rfl open_⟩
  · have unarmed : ∀ buffer signal, d.slot ≠ .armed buffer signal :=
      fun buffer signal slot => waits ⟨buffer, signal, slot⟩
    rw [Directory.close_unarmed closed unarmed,
      abortArmed_unarmed (s := s.shut) (h.unarmed unarmed), h.unarmed unarmed]
    exact ⟨rfl, h.root, h.filter, journal, h.places, by simp [shut], fun open_ => absurd rfl open_⟩

/-- Whatever happens, the two look the same. -/
theorem Shows.act (h : Shows s d) (act : Act) :
    (s.act act).2 = d.reply act ∧ Shows (s.act act).1 (d.act act) := by
  cases act with
  | deliver present delivery =>
    obtain ⟨raised, shows⟩ := h.record present delivery
    exact ⟨congrArg (Reply.mk .nothing) raised, shows⟩
  | read host buffer subtree filter signal =>
    obtain ⟨told, shows⟩ := h.read host buffer subtree filter signal
    refine ⟨?_, shows⟩
    show Reply.mk (.read (s.read host buffer filter signal).2.1)
      (s.read host buffer filter signal).2.2 = _
    rw [told]
    rfl
  | take =>
    obtain ⟨completed, shows⟩ := h.take
    exact ⟨congrArg (fun c => Reply.mk (.taken c) none) completed, shows⟩
  | close =>
    obtain ⟨told, shows⟩ := h.close
    refine ⟨?_, shows⟩
    show Reply.mk (.closed s.close.2.1) s.close.2.2 = _
    rw [told]
    rfl

theorem Shows.after (h : Shows s d) (acts : List Act) :
    s.replies acts = d.replies acts ∧ Shows (s.after acts) (d.after acts) := by
  induction acts generalizing s d with
  | nil => exact ⟨rfl, h⟩
  | cons act rest ih =>
    obtain ⟨reply, shows⟩ := h.act act
    obtain ⟨replies, shows_after⟩ := ih shows
    refine ⟨?_, shows_after⟩
    show (s.act act).2 :: (s.act act).1.replies rest = d.reply act :: (d.act act).replies rest
    rw [reply, replies]

end SplitDirectory

end DirWatch
