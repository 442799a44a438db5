import DirWatch.Cli.Run
import DirWatch.Proofs.Session.Fates
import Mathlib.Data.List.Basic

/-!
# The limit on events

The command `watch` compares the number of its deliveries with the limit between turns, and a turn
hands on all that is queued. So the limit is where the command stops, not how much it writes:
`Following.limit_between_turns` says what holds whatever happens to the session before each turn.
No turn follows one that reaches the limit, and the limit is passed exactly by a turn that begins
below it and hands on more than is missing.
-/

namespace DirWatch.Cli.Following

variable {limit : Option UInt64} {f : Following}

/-! ## Turns -/

/-- The events that the next turn writes. -/
def handed (f : Following) : List Event :=
  if f.stopped then [] else (f.session.dispatchPending fun _ => false).1.seen

/-- The session after a turn that has found something. -/
def attended (f : Following) : Session :=
  endFailed (f.session.dispatchPending fun _ => false).2 f.handed

/-- A pass counts what it shows to the handler as delivered. -/
theorem delivered_pass (s : Session) (fails : Nat → Bool) :
    (s.dispatchPending fails).1.report.delivered = (s.dispatchPending fails).1.seen.length := by
  show (Pass.run s.isEnded fails s.queue).report.delivered =
    (Pass.run s.isEnded fails s.queue).seen.length
  rw [Pass.run_eq]
  exact (Pass.tally_calls _).1.trans (List.length_map _).symm

/-- A turn finds nothing to do, or it hands on all that is queued and looks whether to go on. -/
theorem turn_cases (limit : Option UInt64) (f : Following) :
    f.handed = [] ∧ f.turn limit = f ∨
      f.stopped = false ∧ f.turn limit =
        ⟨f.attended, f.written ++ f.handed, f.delivered + f.handed.length,
          f.attended.active.isEmpty || isEnough limit (f.delivered + f.handed.length)⟩ := by
  by_cases stopped : f.stopped = true
  · exact .inl ⟨if_pos stopped, turn_of_stopped stopped⟩
  · have handed : f.handed = (f.session.dispatchPending fun _ => false).1.seen := if_neg stopped
    by_cases nothing : f.session.queue = []
    · refine .inl ⟨?_, ?_⟩
      · rw [handed]
        show (Pass.run f.session.isEnded _ f.session.queue).seen = []
        rw [nothing]
        rfl
      · simp only [turn, stopped, Session.dispatchNext, nothing, List.isEmpty_nil]
        rfl
    · refine .inr ⟨Bool.eq_false_iff.mpr stopped, ?_⟩
      have found : f.session.dispatchNext (fun _ => false) =
          some (f.session.dispatchPending fun _ => false) :=
        if_neg fun empty => nothing (List.isEmpty_iff.mp empty)
      unfold turn
      rw [if_neg stopped, found]
      simp only [delivered_pass, attended, handed]

theorem written_turn (limit : Option UInt64) (f : Following) :
    (f.turn limit).written = f.written ++ f.handed := by
  obtain ⟨nothing, same⟩ | ⟨-, turned⟩ := f.turn_cases limit
  · rw [same, nothing, List.append_nil]
  · rw [turned]

theorem handed_of_stopped (stopped : f.stopped = true) : f.handed = [] := if_pos stopped

/-! ## Any number of turns -/

/-- Something happens to the session, unless the command has stopped. -/
def meanwhile (f : Following) (change : Session → Session) : Following :=
  if f.stopped then f else { f with session := change f.session }

/-- Turns, each after something has happened to the session. -/
def attend (limit : Option UInt64) (f : Following) (changes : List (Session → Session)) :
    Following :=
  changes.foldl (fun f change => (f.meanwhile change).turn limit) f

/-- The command before each of these turns. -/
def turns (limit : Option UInt64) (f : Following) : List (Session → Session) → List Following
  | [] => []
  | change :: rest => f.meanwhile change :: turns limit ((f.meanwhile change).turn limit) rest

@[simp] theorem written_meanwhile (f : Following) (change : Session → Session) :
    (f.meanwhile change).written = f.written := by
  unfold meanwhile
  split <;> rfl

@[simp] theorem delivered_meanwhile (f : Following) (change : Session → Session) :
    (f.meanwhile change).delivered = f.delivered := by
  unfold meanwhile
  split <;> rfl

@[simp] theorem stopped_meanwhile (f : Following) (change : Session → Session) :
    (f.meanwhile change).stopped = f.stopped := by
  unfold meanwhile
  split <;> rfl

theorem meanwhile_of_stopped (stopped : f.stopped = true) (change : Session → Session) :
    f.meanwhile change = f := if_pos stopped

theorem attend_of_stopped (stopped : f.stopped = true) (changes : List (Session → Session)) :
    f.attend limit changes = f := by
  induction changes with
  | nil => rfl
  | cons change rest ih =>
    show ((f.meanwhile change).turn limit).attend limit rest = f
    rw [meanwhile_of_stopped stopped, turn_of_stopped stopped]
    exact ih

/-- Messages that are queued before each turn are one of the things that can happen. -/
theorem run_eq_attend (limit : Option UInt64) (f : Following) (batches : List (List Message)) :
    f.run limit batches =
      f.attend limit (batches.map fun batch s => { s with queue := s.queue ++ batch }) := by
  unfold attend
  rw [List.foldl_map]
  rfl

/-- What is written is what the turns hand on. -/
theorem written_attend (limit : Option UInt64) (f : Following)
    (changes : List (Session → Session)) :
    (f.attend limit changes).written = f.written ++ (f.turns limit changes).flatMap handed := by
  induction changes generalizing f with
  | nil => exact (List.append_nil _).symm
  | cons change rest ih =>
    show (((f.meanwhile change).turn limit).attend limit rest).written =
      f.written ++ ((f.meanwhile change).handed ++
        (((f.meanwhile change).turn limit).turns limit rest).flatMap handed)
    rw [ih, written_turn, written_meanwhile, List.append_assoc]

/-! ## The limit -/

variable {most : UInt64}

/-- What holds of a command with a limit, before and after every turn. -/
structure Limited (most : UInt64) (f : Following) : Prop where
  /-- The command counts what it writes. -/
  counted : f.delivered = f.written.length
  /-- It has stopped if the limit is reached, -/
  reached : most.toNat ≤ f.written.length → f.stopped = true
  /-- and it stops for this reason or because no watch is left. -/
  reason : f.stopped = true → f.session.active = [] ∨ most.toNat ≤ f.written.length

theorem limited_start (positive : 0 < most.toNat) (session : Session) :
    (start session).Limited most where
  counted := rfl
  reached enough := absurd enough (Nat.not_le_of_lt positive)
  reason stopped := absurd stopped Bool.false_ne_true

theorem Limited.meanwhile (h : f.Limited most) (change : Session → Session) :
    (f.meanwhile change).Limited most := by
  by_cases stopped : f.stopped = true
  · rw [meanwhile_of_stopped stopped]
    exact h
  · refine ⟨?_, ?_, fun stops => ?_⟩
    · rw [delivered_meanwhile, written_meanwhile]
      exact h.counted
    · rw [written_meanwhile, stopped_meanwhile]
      exact h.reached
    · rw [stopped_meanwhile] at stops
      exact absurd stops stopped

theorem isEnough_some {n : Nat} : isEnough (some most) n = true ↔ most.toNat ≤ n :=
  decide_eq_true_iff

theorem Limited.turn (h : f.Limited most) : (f.turn (some most)).Limited most := by
  obtain ⟨-, same⟩ | ⟨-, turned⟩ := f.turn_cases (some most)
  · rw [same]
    exact h
  · have counted : f.delivered + f.handed.length = (f.written ++ f.handed).length := by
      rw [List.length_append, h.counted]
    rw [turned]
    refine ⟨counted, fun enough => ?_, fun stops => ?_⟩
    · rw [← counted] at enough
      exact Bool.or_eq_true_iff.mpr (.inr (isEnough_some.mpr enough))
    · obtain empty | enough := Bool.or_eq_true_iff.mp stops
      · exact .inl (List.isEmpty_iff.mp empty)
      · rw [isEnough_some, counted] at enough
        exact .inr enough

theorem Limited.attend (h : f.Limited most) (changes : List (Session → Session)) :
    (f.attend (some most) changes).Limited most := by
  induction changes generalizing f with
  | nil => exact h
  | cons change rest ih => exact ih (h.meanwhile change).turn

/-- The next turn begins below the limit and passes it. -/
def Oversteps (most : UInt64) (f : Following) : Prop :=
  f.written.length < most.toNat ∧ most.toNat < f.written.length + f.handed.length

/-- A turn that hands on something begins below the limit. -/
theorem Limited.idle_or_below (h : f.Limited most) :
    f.handed = [] ∨ f.written.length < most.toNat := by
  by_cases stopped : f.stopped = true
  · exact .inl (handed_of_stopped stopped)
  · exact .inr (Nat.lt_of_not_le fun enough => stopped (h.reached enough))

/-- A turn passes the limit only from below. -/
theorem Limited.lt_turn_iff (h : f.Limited most) :
    most.toNat < (f.turn (some most)).written.length ↔
      most.toNat < f.written.length ∨ f.Oversteps most := by
  rw [written_turn, List.length_append, Oversteps]
  obtain nothing | below := h.idle_or_below
  · rw [nothing, List.length_nil]
    omega
  · omega

theorem Limited.lt_attend_iff (h : f.Limited most) (changes : List (Session → Session)) :
    most.toNat < (f.attend (some most) changes).written.length ↔
      most.toNat < f.written.length ∨ ∃ g ∈ f.turns (some most) changes, g.Oversteps most := by
  induction changes generalizing f with
  | nil =>
    show most.toNat < f.written.length ↔ _ ∨ ∃ g ∈ [], _
    simp only [List.not_mem_nil, false_and, exists_false, or_false]
  | cons change rest ih =>
    have begun := h.meanwhile change
    show most.toNat <
        (((f.meanwhile change).turn (some most)).attend (some most) rest).written.length ↔
      _ ∨ ∃ g ∈ f.meanwhile change :: _, _
    rw [ih begun.turn, begun.lt_turn_iff, written_meanwhile, List.exists_mem_cons_iff, or_assoc]

/-- Turns that hand on at most so many events pass the limit by fewer. -/
theorem Limited.length_attend_lt (h : f.Limited most) {size : Nat}
    (changes : List (Session → Session)) (start : f.written.length < most.toNat + size)
    (small : ∀ g ∈ f.turns (some most) changes, g.handed.length ≤ size) :
    (f.attend (some most) changes).written.length < most.toNat + size := by
  induction changes generalizing f with
  | nil => exact start
  | cons change rest ih =>
    have begun := h.meanwhile change
    obtain ⟨first, others⟩ := List.forall_mem_cons.mp small
    refine ih begun.turn ?_ others
    rw [written_turn, List.length_append]
    obtain nothing | below := begun.idle_or_below
    · rw [nothing, written_meanwhile]
      exact start
    · omega

/-! ## The end -/

/-- A session at the end of the command, and before it. -/
structure Ended (before after : Session) : Prop where
  /-- It takes no new watches, -/
  tornDown : after.tornDown = true
  /-- there are none left, -/
  active : after.active = []
  /-- those that were are closed, -/
  closed : ∀ w ∈ after.watches, before.contains w.handle = true → w.closed = true
  /-- and nothing is queued. -/
  queue : after.queue = []

theorem ended_finish (f : Following) : Ended f.session f.finish where
  tornDown := rfl
  active := rfl
  closed := by
    intro w mem active
    obtain ⟨before, -, rfl⟩ := List.mem_map.mp mem
    by_cases was : f.session.contains before.handle = true
    · rw [if_pos was]
      exact before.closed_close
    · rw [if_neg was] at active
      exact absurd active was
  queue := rfl

/-! ## What the limit means -/

/-- What a limit means for a command that has made these turns. -/
structure Bounds (most : UInt64) (turns : List Following) (f : Following) : Prop where
  limited : f.Limited most
  /-- What is written is what the turns hand on. -/
  written : f.written = turns.flatMap handed
  /-- Once the limit is reached, nothing more is written, whatever happens to the session. -/
  final : most.toNat ≤ f.written.length → ∀ changes, f.attend (some most) changes = f
  ended : Ended f.session f.finish
  /-- More events are written than the limit says just if a turn that begins below the limit hands
  on more than is missing. -/
  passed : most.toNat < f.written.length ↔ ∃ turn ∈ turns, turn.Oversteps most
  /-- If each turn hands on at most so many events, fewer than so many are written beyond the limit.
  -/
  beyond : ∀ size, (∀ turn ∈ turns, turn.handed.length ≤ size) →
    f.written.length < most.toNat + size

/-- Whatever happens to a session before each turn: the limit ends the turns, and it is passed just
by a turn that hands on too much at once. -/
theorem limit_between_turns (positive : 0 < most.toNat) (session : Session)
    (changes : List (Session → Session)) :
    Bounds most ((start session).turns (some most) changes)
      ((start session).attend (some most) changes) := by
  have begun := limited_start positive session
  have limited := begun.attend changes
  exact {
    limited
    written := written_attend _ _ changes
    final := fun enough => attend_of_stopped (limited.reached enough)
    ended := ended_finish _
    passed := (begun.lt_attend_iff changes).trans (or_iff_right (Nat.not_lt_zero _))
    beyond := fun size => begun.length_attend_lt changes (Nat.lt_add_right size positive) }

/-- Two watches, and what they report at once and afterwards: the first turn ends the command. -/
theorem limit_between_turns_twoAtOnce :
    let session := (openWatches { bufferSize := 16 } { tree := ⟨[], []⟩ }
      ⟨["/", "/"], [], false, [], none⟩).session
    let report := fun (messages : List Message) (s : Session) =>
      { s with queue := s.queue ++ messages }
    let changes := [report [⟨⟨1⟩, .changes [⟨.added, "a"⟩]⟩, ⟨⟨2⟩, .changes [⟨.added, "b"⟩]⟩],
      report [⟨⟨1⟩, .changes [⟨.removed, "a"⟩]⟩]]
    0 < (1 : UInt64).toNat ∧ ((start session).attend (some 1) changes).written.length = 2 ∧
      Bounds 1 ((start session).turns (some 1) changes)
        ((start session).attend (some 1) changes) :=
  ⟨by decide, by decide +kernel, limit_between_turns (by decide) _ _⟩

/-! ## The command as a whole -/

/-- The command writes what it has attended to, after its watches have told what there is. -/
theorem output_runWatch (config : Config) (host : Host) (choices : WatchChoices) :
    let opened := openWatches config.monitor host choices
    opened.failure = none → (runWatch config host choices).output =
      ((start opened.session).attend config.cli.maxEvents
        [fun s => (s.settle opened.host).1]).written.flatMap (writeEvent config.cli.format) := by
  intro opened began
  simp only [runWatch]
  rw [show (openWatches config.monitor host choices).failure = none from began]
  rfl

/-- The limit is one event. Two watches of one directory have something to tell, and the command
writes both events. -/
theorem limit_passed :
    let config : Config := { monitor := { bufferSize := 16 }, cli := { maxEvents := some 1 } }
    let host : Host := {
      tree := ⟨[], []⟩
      waiting := [([RawPath.slash], [.ok ⟨.create .file, [[RawPath.slash, 97]], false⟩])] }
    let choices : WatchChoices := ⟨["/", "/"], [], false, [], none⟩
    let events : List Event :=
      [⟨⟨1⟩, .changes [⟨.added, "a"⟩]⟩, ⟨⟨2⟩, .changes [⟨.added, "a"⟩]⟩]
    (runWatch config host choices).output = events.flatMap (writeEvent .text) ∧
      ((start (openWatches config.monitor host choices).session).run config.cli.maxEvents
        [events]).written = events ∧
      ¬ events.length ≤ (1 : UInt64).toNat :=
  ⟨by decide +kernel, by decide +kernel, by decide⟩

end DirWatch.Cli.Following
