import DirWatch.Proofs.Session.Answers
import Mathlib.Data.List.Basic

/-!
# The active watches of the sessions of a process

Any number of sessions share a host, and with it the numbers that name watches (`Process.run`). Each
session keeps its own registry of active watches; `Process.active_watches` says what all of them
hold after any run, and that no handle is ever given twice, in whatever session.
-/

namespace DirWatch

/-- A surrounding that changes leaves the numbers of a process alone. -/
def Session.Act.numbered (numbers : Nat) : Session.Act → Session.Act
  | .surroundings host => .surroundings { host with nextHandle := numbers }
  | act => act

/-- The handle that an answer returns. -/
def Session.Answer.returned? : Session.Answer → Option Handle
  | .registered (.ok h) => some h
  | _ => none

namespace World

variable {world : World} {answered : List Session.Answer}

/-- What an act returns is what it has made. -/
theorem Told.returned {act : Session.Act} {world' : World} (told : world.Told act world') :
    ((world.answers act).filterMap Session.Answer.returned?).Sublist
      ((world.makes act).map Watch.handle) := by
  have single : ∀ answer, world.answers act = [answer] →
      ((world.answers act).filterMap Session.Answer.returned?).Sublist
        ((world.makes act).map Watch.handle) := by
    intro answer answers
    match answer with
    | .registered (.ok h) =>
      have mem : .registered (.ok h) ∈ world.answers act := by
        rw [answers]
        exact List.mem_cons_self
      rw [answers, (told.registered h mem).2]
      exact List.Sublist.refl _
    | .registered (.error e) =>
      rw [answers]
      exact List.nil_sublist _
    | .unregistered h answer =>
      rw [answers]
      exact List.nil_sublist _
    | .tornDown n =>
      rw [answers]
      exact List.nil_sublist _
  cases act with
  | register path includeSubtree filter patterns => exact single _ rfl
  | watch path => exact single _ rfl
  | unregister h => exact single _ rfl
  | teardown => exact single _ rfl
  | _ => exact List.nil_sublist _

/-- What an act makes has the next number, and nothing is made twice. -/
theorem handles_makes (world : World) (act : Session.Act) :
    (world.makes act).map Watch.handle =
      (List.range' world.host.nextHandle (world.makes act).length).map Handle.mk := by
  have single : ∀ w, world.makes act = [w] → (world.makes act).map Watch.handle =
      (List.range' world.host.nextHandle (world.makes act).length).map Handle.mk := by
    intro w makes
    have mem : w ∈ world.makes act := by
      rw [makes]
      exact List.mem_cons_self
    rw [makes, List.map_singleton, handle_of_mem_makes mem]
    rfl
  have at_most_one : (world.makes act).length ≤ 1 := by
    cases act with
    | register path includeSubtree filter patterns => exact Option.length_toList_le
    | watch path => exact Option.length_toList_le
    | _ => exact Nat.zero_le 1
  match makes : world.makes act with
  | [] => rfl
  | [w] =>
    rw [← makes]
    exact single w makes
  | w :: w' :: rest =>
    rw [makes] at at_most_one
    simp at at_most_one

end World

/-- A process with its sessions. The host of the process is the host of every session. -/
structure Process where
  host : Host
  sessions : List World
  /-- Every handle that has been given, in order. -/
  given : List Handle
  /-- What has been answered, and by which session. -/
  answered : List (Nat × Session.Answer)

/-- What can happen in a process. -/
inductive Process.Act where
  | begin (config : MonitorConfig)
  | within (session : Nat) (act : Session.Act)
  /-- A handle is given to nobody in particular. -/
  | allocate

namespace Process

/-- A process without sessions, which has not given any handle. -/
def start (host : Host) : Process := ⟨{ host with nextHandle := 1 }, [], [], []⟩

/-- A session of a process, on the host as it is now. -/
def session? (p : Process) (i : Nat) : Option World :=
  p.sessions[i]?.map fun world => { world with host := p.host }

def step (p : Process) : Act → Process
  | .begin config => { p with sessions := p.sessions ++ [.start config p.host] }
  | .within i act =>
    match p.session? i with
    | none => p
    | some world =>
      let act := act.numbered p.host.nextHandle
      { host := (world.step act).host
        sessions := p.sessions.set i (world.step act)
        given := p.given ++ (world.makes act).map Watch.handle
        answered := p.answered ++ (world.answers act).map fun answer => (i, answer) }
  | .allocate => { p with host := p.host.allocate.2, given := p.given ++ [p.host.allocate.1] }

def run (p : Process) (acts : List Act) : Process := acts.foldl step p

/-- What one session has answered. -/
def answeredBy (p : Process) (i : Nat) : List Session.Answer :=
  p.answered.filterMap fun x => if x.1 = i then some x.2 else none

/-- Every handle that a registration has returned, in whatever session. -/
def returned (p : Process) : List Handle := p.answered.filterMap fun x => x.2.returned?

/-- What holds of a process at any time. -/
structure Kept (p : Process) : Prop where
  given : p.given = (List.range' 1 p.given.length).map Handle.mk
  numbers : p.host.nextHandle = 1 + p.given.length
  returned : p.returned.Sublist p.given
  known : ∀ i world, p.session? i = some world → world.Known (p.answeredBy i)
  /-- A session that has not begun has not answered. -/
  later : ∀ i, p.sessions.length ≤ i → p.answeredBy i = []

variable {p : Process}

theorem kept_start (host : Host) : (start host).Kept where
  given := rfl
  numbers := rfl
  returned := List.nil_sublist _
  known i world found := by simp [session?, start] at found
  later i _ := rfl

theorem answeredBy_append (p p' : Process) (i j : Nat) (answers : List Session.Answer)
    (answered : p'.answered = p.answered ++ answers.map fun answer => (i, answer)) :
    p'.answeredBy j = p.answeredBy j ++ if i = j then answers else [] := by
  rw [answeredBy, answered, List.filterMap_append, List.filterMap_map]
  congr 1
  split
  · next same => simp [same]
  · next other => simp [other]

theorem Kept.begin (kept : p.Kept) (config : MonitorConfig) : (p.step (.begin config)).Kept where
  given := kept.given
  numbers := kept.numbers
  returned := kept.returned
  known i world found := by
    rw [session?, step, Option.map_eq_some_iff] at found
    obtain ⟨w, found, rfl⟩ := found
    dsimp only at found
    rcases Nat.lt_trichotomy i p.sessions.length with before | last | beyond
    · rw [List.getElem?_append_left before] at found
      exact kept.known i _ (by rw [session?, found, Option.map_some])
    · have none_answered : p.answeredBy i = [] := kept.later i (Nat.le_of_eq last.symm)
      rw [last, List.getElem?_concat_length] at found
      obtain rfl := Option.some.inj found
      show World.Known (p.answeredBy i) _
      rw [none_answered]
      exact World.known_start config p.host
    · rw [List.getElem?_eq_none (by simp; omega)] at found
      contradiction
  later i beyond := by
    apply kept.later i
    rw [step, List.length_append] at beyond
    omega

theorem Kept.allocate (kept : p.Kept) : (p.step .allocate).Kept where
  given := by
    show p.given ++ [⟨p.host.nextHandle⟩] = _
    have length : (p.step .allocate).given.length = p.given.length + 1 := by
      simp [step]
    rw [length, List.range'_concat, List.map_append, ← kept.given, kept.numbers]
    simp
  numbers := by
    simp [step, Host.allocate, kept.numbers]
    omega
  returned := kept.returned.trans (List.sublist_append_left _ _)
  known i world found := by
    rw [session?, step, Option.map_eq_some_iff] at found
    obtain ⟨w, found, rfl⟩ := found
    have before := kept.known i { w with host := p.host } (by rw [session?, found]; rfl)
    exact before.rehost (Nat.le_succ _)
  later := kept.later

/-- Each watch that an act makes takes one number, and nothing else does: where the surroundings
change, the numbers stay those of the process. -/
theorem numbers_numbered {world : World} (accounted : world.Accounted true) {act a : Session.Act}
    (numbered : act.numbered world.host.nextHandle = a) :
    (world.step a).host.nextHandle = world.host.nextHandle + (world.makes a).length := by
  cases act with
  | surroundings host =>
    rw [← numbered]
    exact Nat.max_self _
  | _ =>
    apply (accounted.told a).numbers
    intro host is_surroundings
    rw [← numbered] at is_surroundings
    contradiction

/-- What happens in one session keeps what is known of all. -/
theorem Kept.within (kept : p.Kept) (i : Nat) (act : Session.Act) :
    (p.step (.within i act)).Kept := by
  cases found : p.session? i with
  | none =>
    have same : p.step (.within i act) = p := by
      simp only [step, found]
    rw [same]
    exact kept
  | some world =>
    have known := kept.known i world found
    obtain ⟨w, session, rfl⟩ := Option.map_eq_some_iff.mp found
    have begun : i < p.sessions.length := (List.getElem?_eq_some_iff.mp session).1
    generalize world_eq : ({ w with host := p.host } : World) = world at found known
    have shared : world.host = p.host := by rw [← world_eq]
    generalize numbered : act.numbered p.host.nextHandle = a
    have stepped : p.step (.within i act) =
        { host := (world.step a).host
          sessions := p.sessions.set i (world.step a)
          given := p.given ++ (world.makes a).map Watch.handle
          answered := p.answered ++ (world.answers a).map fun answer => (i, answer) } := by
      simp only [step, found, numbered]
    have told := known.accounted.told a
    have numbers := numbers_numbered known.accounted (shared ▸ numbered)
    have advances := (known.accounted.advances a).numbers
    rw [stepped]
    refine ⟨?_, ?_, ?_, ?_, ?_⟩
    · dsimp only
      rw [List.length_append, List.length_map, ← List.range'_append_1, List.map_append,
        ← kept.given, ← kept.numbers, ← shared, ← world.handles_makes a]
    · dsimp only
      rw [numbers, shared, kept.numbers, List.length_append, List.length_map, Nat.add_assoc]
    · rw [Process.returned, List.filterMap_append, List.filterMap_map]
      exact kept.returned.append told.returned
    · intro j v now
      rw [answeredBy_append p _ i j _ rfl]
      rw [session?, Option.map_eq_some_iff] at now
      obtain ⟨u, now, rfl⟩ := now
      dsimp only at now
      by_cases own : i = j
      · subst own
        rw [List.getElem?_set_self begun] at now
        obtain rfl := Option.some.inj now
        rw [if_pos rfl]
        exact known.step a
      · rw [List.getElem?_set_ne own] at now
        rw [if_neg own, List.append_nil]
        have before := kept.known j { u with host := p.host } (by rw [session?, now]; rfl)
        rw [shared] at advances
        exact before.rehost advances
    · intro j beyond
      rw [List.length_set] at beyond
      rw [answeredBy_append p _ i j _ rfl, if_neg (by omega), List.append_nil]
      exact kept.later j beyond

theorem Kept.step (kept : p.Kept) (act : Act) : (p.step act).Kept := by
  cases act with
  | begin config => exact kept.begin config
  | within i act => exact kept.within i act
  | allocate => exact kept.allocate

theorem Kept.run (kept : p.Kept) (acts : List Act) : (p.run acts).Kept := by
  induction acts generalizing p with
  | nil => exact kept
  | cons act rest ih => exact ih (kept.step act)

/-- After whatever has happened in a process: the handles that were given are the numbers from one
on in order, and those that registrations have returned are among them in the same order, so that
none is returned twice; and in every session what has been answered tells which watches are active,
a watch is open exactly if it is active, and registering, unregistering and tearing down do with the
active watches what `World.Registry` says. -/
theorem active_watches (host : Host) (acts : List Act) :
    let p := (start host).run acts
    p.given = (List.range' 1 p.given.length).map Handle.mk ∧ p.returned.Sublist p.given ∧
      ∀ i world, p.session? i = some world → world.Registry (p.answeredBy i) := by
  have kept := (kept_start host).run acts
  refine ⟨kept.given, kept.returned, ?_⟩
  intro i world found
  exact (kept.known i world found).registry

/-- Two sessions take turns: the second one is given the second handle and the fourth, since the
third is given to nobody; the first one has unregistered its watch. -/
example :
    let p := (start { tree := ⟨[], []⟩ }).run [.begin { bufferSize := 16 },
      .begin { bufferSize := 16 }, .within 0 (.watch "/"), .within 1 (.watch "/"), .allocate,
      .within 1 (.watch "/"), .within 0 (.unregister ⟨1⟩)]
    p.returned = [⟨1⟩, ⟨2⟩, ⟨4⟩] ∧
      (p.session? 0).map (fun world => world.session.active) = some [] ∧
      (p.session? 1).map (fun world => world.session.active) = some [⟨2⟩, ⟨4⟩] := by
  decide +kernel

end Process

end DirWatch
