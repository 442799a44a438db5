import DirWatch.Proofs.Watch.Account
import DirWatch.Session.Basic

/-!
# Runs of a session

A session lives in a world: its host, and the record of what has happened to its watches.
`World.step` lets one thing happen, `World.run` one after another; both do to the session just what
the operations of sessions do, and only write down what these forget. `World.account` is the account
of one watch.
-/

namespace DirWatch

/-- What can happen to a session. -/
inductive Session.Act where
  | register (path : String) (includeSubtree : Bool) (filter : Filter) (patterns : List String)
  | watch (path : String)
  | unregister (h : Handle)
  | teardown
  /-- The backend delivers something to a watch. -/
  | deliver (h : Handle) (delivery : Delivery)
  /-- The worker of a watch looks at its signal. -/
  | work (h : Handle)
  /-- The callback of a watch runs, whether its signal is up or not. -/
  | callBack (h : Handle)
  | dispatch (fails : Nat → Bool)
  | dispatchNext (fails : Nat → Bool)
  /-- The host changes in any way; numbers that have been given to watches do not come again. -/
  | surroundings (host : Host)

/-- A session with its host and its past. -/
structure World where
  session : Session
  host : Host
  /-- Every message that was ever queued, in order. -/
  sent : List Message
  /-- Every event that was handed to the handler, in order. -/
  seen : List Event
  /-- What arrived, and at which watch. -/
  arrivals : List (Handle × Arrival)
  /-- Watches as they stood when they asked for a read. -/
  requests : List Watch

namespace World

/-- A session without watches on some host. -/
def start (config : MonitorConfig) (host : Host) : World :=
  ⟨.new config, host, [], [], [], []⟩

/-- Writes down a registration. -/
def enroll (world : World) : Except RegisterError Handle × Session × Host → World
  | (.error _, session, host) => { world with session, host }
  | (.ok h, session, host) =>
    let first := (session.watch? h).toList.map fun w => Watch.firstRequest w.settings world.host
    { world with
      session
      host
      arrivals := world.arrivals ++ first.flatMap fun w =>
        (w.firstArrival world.host).map fun x => (h, x)
      requests := world.requests ++ first }

/-- Writes down what a watch has reported, and the requests that it has made. -/
def absorb (world : World) (outcome : Session × Host) (requests : List Watch) : World :=
  { world with
    session := outcome.1
    host := outcome.2
    sent := world.sent ++ outcome.1.queue.drop world.session.queue.length
    requests := world.requests ++ requests }

/-- Writes down what has been handed to the handler. -/
def dispatched (world : World) (pass : Pass) (session : Session) : World :=
  { world with session, seen := world.seen ++ pass.seen }

/-- Lets one thing happen. -/
def step (world : World) : Session.Act → World
  | .register path includeSubtree filter patterns =>
    world.enroll (world.session.register world.host path includeSubtree filter patterns)
  | .watch path => world.enroll (world.session.watch world.host path)
  | .unregister h => { world with session := (world.session.unregister h).2 }
  | .teardown => { world with session := world.session.teardown.2 }
  | .deliver h delivery =>
    { world with
      session := world.session.deliver world.host.tree.pathExists h delivery
      arrivals := world.arrivals ++ (world.session.watch? h).toList.flatMap fun w =>
        (w.arrival world.host.tree.pathExists [delivery]).map fun x => (h, x) }
  | .work h =>
    world.absorb (world.session.work world.host h) ((world.session.watch? h).toList.flatMap fun w =>
      if w.isSignaled then w.consumeSignal.nextRequest else [])
  | .callBack h =>
    world.absorb (world.session.callBack world.host h)
      ((world.session.watch? h).toList.flatMap Watch.nextRequest)
  | .dispatch fails =>
    world.dispatched (world.session.dispatchPending fails).1
      (world.session.dispatchPending fails).2
  | .dispatchNext fails =>
    match world.session.dispatchNext fails with
    | none => world
    | some (pass, session) => world.dispatched pass session
  | .surroundings host =>
    { world with host := { host with nextHandle := max host.nextHandle world.host.nextHandle } }

def run (world : World) (acts : List Session.Act) : World := acts.foldl step world

/-- The worlds to which runs lead that begin with a session without watches. Unless they are
`loose`, callbacks run only when a worker finds its signal up. -/
def Reachable (loose : Bool) (world : World) : Prop :=
  ∃ (config : MonitorConfig) (host : Host) (acts : List Session.Act),
    (loose = false → ∀ k, Session.Act.callBack k ∉ acts) ∧ world = (start config host).run acts

/-! ## What belongs to one watch -/

/-- The payloads of the events of one watch. -/
def payloads (h : Handle) (events : List Event) : List Payload :=
  (events.filter fun e => e.handle = h).map fun e => e.payload

/-- What is written down for one watch. -/
def noted {α : Type} (h : Handle) (notes : List (Handle × α)) : List α :=
  (notes.filter fun x => x.1 = h).map fun x => x.2

/-- All that a watch has reported. -/
def sentBy (world : World) (h : Handle) : List Payload := payloads h world.sent

def queuedBy (world : World) (h : Handle) : List Payload := payloads h world.session.queue

def seenBy (world : World) (h : Handle) : List Payload := payloads h world.seen

def arrivalsAt (world : World) (h : Handle) : List Arrival := noted h world.arrivals

/-- A watch each time that it asked for a read. -/
def requestsOf (world : World) (h : Handle) : List Watch :=
  world.requests.filter fun w => w.handle = h

def account (world : World) (w : Watch) : Account where
  watch := w
  sent := world.sentBy w.handle
  queued := world.queuedBy w.handle
  seen := world.seenBy w.handle
  arrivals := world.arrivalsAt w.handle
  requests := world.requestsOf w.handle

theorem run_append (world : World) (acts acts' : List Session.Act) :
    world.run (acts ++ acts') = (world.run acts).run acts' := List.foldl_append

theorem Reachable.run {loose : Bool} {world : World} (h : world.Reachable loose)
    (acts : List Session.Act) (strict : loose = false → ∀ k, Session.Act.callBack k ∉ acts) :
    (world.run acts).Reachable loose := by
  obtain ⟨config, host, before, strict_before, rfl⟩ := h
  refine ⟨config, host, before ++ acts, fun s k hk => ?_, (run_append _ _ _).symm⟩
  rcases List.mem_append.mp hk with hk | hk
  · exact strict_before s k hk
  · exact strict s k hk

theorem payloads_append (h : Handle) (es es' : List Event) :
    payloads h (es ++ es') = payloads h es ++ payloads h es' := by
  rw [payloads, List.filter_append, List.map_append]
  rfl

theorem payloads_reports (h k : Handle) (ps : List Payload) :
    payloads h (ps.map fun p => ⟨k, p⟩) = if k = h then ps else [] := by
  induction ps with
  | nil => split <;> rfl
  | cons p rest ih =>
    by_cases same : k = h
    · subst same
      rw [if_pos rfl] at ih ⊢
      rw [List.map_cons, payloads, List.filter_cons_of_pos (by simp), List.map_cons]
      exact congrArg _ ih
    · rw [if_neg same] at ih ⊢
      rw [List.map_cons, payloads, List.filter_cons_of_neg (by simp [same])]
      exact ih

theorem payloads_eq_nil_iff {h : Handle} {es : List Event} :
    payloads h es = [] ↔ ∀ e ∈ es, e.handle ≠ h := by
  rw [payloads, List.map_eq_nil_iff, List.filter_eq_nil_iff]
  simp

theorem noted_append {α : Type} (h : Handle) (xs ys : List (Handle × α)) :
    noted h (xs ++ ys) = noted h xs ++ noted h ys := by
  rw [noted, List.filter_append, List.map_append]
  rfl

/-- What is written down for a watch is read for this watch only. -/
theorem noted_pairs {α : Type} (h k : Handle) (xs : List α) :
    noted h (xs.map fun x => (k, x)) = if k = h then xs else [] := by
  induction xs with
  | nil => split <;> rfl
  | cons x rest ih =>
    by_cases same : k = h
    · rw [if_pos same] at ih ⊢
      rw [List.map_cons, noted, List.filter_cons_of_pos (by simp [same]), List.map_cons]
      exact congrArg _ ih
    · rw [if_neg same] at ih ⊢
      rw [List.map_cons, noted, List.filter_cons_of_neg (by simp [same])]
      exact ih

end World

end DirWatch
