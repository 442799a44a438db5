import DirWatch.Proofs.Watch.Starting

/-!
# The account of a watch

Beside a watch, its account keeps what the watch itself forgets: all that it has reported, what of
it is still queued and what has been handed on, what the backend has delivered, and how the watch
stood each time it asked for a read. `Account.Lived` describes the accounts that arise while a watch
is active. Workers that look at their signal are told apart from callbacks that run without one,
since the latter are not promised to leave the signal as the reads stand.
-/

namespace DirWatch

/-- What the backend has delivered at one time. -/
structure Arrival where
  /-- The paths that existed then. -/
  present : RawPath → Bool
  deliveries : List Delivery
  /-- Changes had been given up when all this was entered into the journal. -/
  overflowed : Bool

namespace Watch

/-- What arrives at a watch: nothing, if it has no directory. -/
def arrival (w : Watch) (present : RawPath → Bool) (deliveries : List Delivery) : List Arrival :=
  match w.directory with
  | none => []
  | some d =>
    [⟨present, deliveries,
      ({ d with filter := w.settings.filter }.enterAll present deliveries).journal.overflowed⟩]

/-- What arrives when the backend begins to observe the directory of a watch. -/
def firstArrival (w : Watch) (host : Host) : List Arrival :=
  match w.directory with
  | none => []
  | some d => w.arrival host.tree.pathExists (host.atOnce d.root)

/-- The watch as it asks for a read when its callback runs; nothing, if it asks for none. -/
def nextRequest (w : Watch) : List Watch :=
  match w.directory with
  | none => []
  | some d =>
    match d.take with
    | (some (.done buffer bytes), d) =>
      if w.closed then [] else [w.endRead d (.done buffer bytes)]
    | _ => []

theorem handle_of_mem_nextRequest {w r : Watch} (h : r ∈ w.nextRequest) : r.handle = w.handle := by
  unfold nextRequest at h
  split at h
  · simp at h
  · split at h
    · split at h
      · simp at h
      · rw [List.mem_singleton.mp h]
        rfl
    · simp at h

theorem Shut.nextRequest {w : Watch} (h : w.Shut) : w.nextRequest = [] := by
  rw [Watch.nextRequest, h.directory]

/-- A watch asks for its next read when the one before has found something. -/
theorem At.nextRequest {w : Watch} {root : RawPath} {stage : Stage} {j : Journal} {l : Latch}
    (h : w.At root stage j l) :
    w.nextRequest = match stage with
      | .ready (.done buffer bytes) =>
        [w.endRead (w.directoryAt root .ended j) (.done buffer bytes)]
      | _ => [] := by
  rw [Watch.nextRequest, h.opened]
  match stage, h with
  | .waiting buffer, _ => rfl
  | .ready (.done buffer bytes), h => exact if_neg (by simp [h.not_closed])
  | .ready (.failed e), _ => rfl
  | .ended, _ => rfl

end Watch

/-- A watch with its past. -/
structure Account where
  watch : Watch
  /-- All that the watch has reported. -/
  sent : List Payload
  queued : List Payload
  seen : List Payload
  arrivals : List Arrival
  /-- The watch as it stood each time it asked for a read. -/
  requests : List Watch

namespace Account

/-- The account of a watch that has just been set up. -/
def opening (settings : WatchSettings) (host : Host) (w : Watch) : Account where
  watch := w
  sent := []
  queued := []
  seen := []
  arrivals := (Watch.firstRequest settings host).firstArrival host
  requests := [Watch.firstRequest settings host]

def deliver (present : RawPath → Bool) (a : Account) (delivery : Delivery) : Account :=
  { a with
    watch := a.watch.deliver present delivery
    arrivals := a.arrivals ++ a.watch.arrival present [delivery] }

def callBack (a : Account) (host : Host) : Account :=
  { a with
    watch := (a.watch.onReadComplete host).2.1
    sent := a.sent ++ (a.watch.onReadComplete host).1
    queued := a.queued ++ (a.watch.onReadComplete host).1
    requests := a.requests ++ a.watch.nextRequest }

def work (a : Account) (host : Host) : Account :=
  if a.watch.isSignaled then { a with watch := a.watch.consumeSignal }.callBack host else a

/-- All that is queued is handed to the handler, except reports without changes. -/
def dispatch (a : Account) : Account :=
  { a with
    queued := []
    seen := a.seen ++ a.queued.filter fun p => p.status ≠ .noChanges }

/-- The accounts of active watches. Only if they are `loose` may callbacks run without a signal. -/
inductive Lived (loose : Bool) : Account → Prop where
  | opening {settings : WatchSettings} {host host' : Host} {w : Watch}
      (set_up : Watch.setUp settings host = (.ok w, host')) :
      Lived loose (opening settings host w)
  | deliver {a : Account} (before : Lived loose a) (present : RawPath → Bool)
      (delivery : Delivery) : Lived loose (a.deliver present delivery)
  | work {a : Account} (before : Lived loose a) (host : Host) : Lived loose (a.work host)
  | callBack {a : Account} (may : loose = true) (before : Lived loose a) (host : Host) :
      Lived loose (a.callBack host)
  | dispatch {a : Account} (before : Lived loose a) : Lived loose a.dispatch

/-- The worker of a watch consumes the signal, if it is up, and runs the callback. -/
theorem work_eq (a : Account) (host : Host) :
    a.work host = { a with
      watch := (a.watch.work host).2.1
      sent := a.sent ++ (a.watch.work host).1
      queued := a.queued ++ (a.watch.work host).1
      requests := a.requests ++
        if a.watch.isSignaled then a.watch.consumeSignal.nextRequest else [] } := by
  rw [Account.work, Watch.work]
  cases a.watch.isSignaled with
  | true => rfl
  | false => simp

/-! ## What the account says -/

/-- The changes that have been reported, in order. -/
def told (a : Account) : List Change :=
  a.seen.flatMap Payload.changeList ++ a.queued.flatMap Payload.changeList

/-- The changes that a directory with this root has made of all that arrived. -/
def arrived (a : Account) (root : RawPath) : List Change :=
  a.arrivals.flatMap fun x =>
    x.deliveries.filterMap (Delivery.change? x.present root a.watch.settings.filter)

/-- Nothing of what arrived has made the journal give up changes. -/
def Undisturbed (a : Account) : Prop := ∀ x ∈ a.arrivals, x.overflowed = false

theorem told_callBack (a : Account) (host : Host) :
    (a.callBack host).told =
      a.told ++ (a.watch.onReadComplete host).1.flatMap Payload.changeList := by
  simp only [told, callBack, List.flatMap_append, List.append_assoc]

/-- Reports without changes say nothing. -/
theorem told_dispatch (a : Account) : a.dispatch.told = a.told := by
  have filtered : ∀ ps : List Payload,
      (ps.filter fun p => p.status ≠ .noChanges).flatMap Payload.changeList =
        ps.flatMap Payload.changeList := by
    intro ps
    induction ps with
    | nil => rfl
    | cons p rest ih =>
      rw [List.flatMap_cons, ← ih]
      match p with
      | .changes [] => rfl
      | .changes (c :: cs) => rfl
      | .failure e => rfl
  simp only [told, dispatch, List.flatMap_append, filtered, List.flatMap_nil, List.append_nil]

end Account

end DirWatch
