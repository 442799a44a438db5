import DirWatch.Session.Dispatch
import DirWatch.Watch.Closing

/-!
# Sessions

A session holds the active watches, the queue of what they report and the totals of its dispatch
passes. Watches that have been closed are kept, so that one can still look at them; `active` lists
the handles of the others. A session that has been torn down takes no new watches.
-/

namespace DirWatch

/-- The watches of one user, and their reports. -/
structure Session where
  config : MonitorConfig
  /-- Every watch that was registered, in the order of their handles. -/
  watches : List Watch
  /-- The handles of the active watches. -/
  active : List Handle
  queue : List Message
  tornDown : Bool
  totals : Report

/-- Why a watch cannot be registered. -/
inductive RegisterError where
  | refused (error : WatchError)
  /-- There are more patterns than a watch takes. -/
  | tooManyPatterns (count : Nat)
  deriving DecidableEq

def RegisterError.message : RegisterError → String
  | refused e => e.message
  | tooManyPatterns count =>
    "a watch takes at most " ++ toString Patterns.limit ++ " patterns, got " ++ toString count

namespace Session

def new (config : MonitorConfig) : Session := ⟨config, [], [], [], false, .zero⟩

/-! ## Watches -/

/-- The watch with a handle, active or closed. -/
def watch? (s : Session) (h : Handle) : Option Watch := s.watches.find? fun w => w.handle == h

def contains (s : Session) (h : Handle) : Bool := s.active.contains h

/-- The active watch with a handle. -/
def activeWatch? (s : Session) (h : Handle) : Option Watch :=
  if s.contains h then s.watch? h else none

def update (s : Session) (h : Handle) (f : Watch → Watch) : Session :=
  { s with watches := s.watches.map fun w => if w.handle = h then f w else w }

/-- Registers a watch. If it cannot be set up, the session stays as it was. -/
def register (s : Session) (host : Host) (path : String) (includeSubtree : Bool) (filter : Filter)
    (patterns : List String) : Except RegisterError Handle × Session × Host :=
  if s.tornDown then (.error (.refused .sessionClosed), s, host)
  else
    match Patterns.parse patterns with
    | .error e => (.error (.refused e), s, host)
    | .ok patterns =>
      if Patterns.limit < patterns.length then
        (.error (.tooManyPatterns patterns.length), s, host)
      else
        match Watch.setUp (Watch.settingsFor s.config path includeSubtree filter patterns) host with
        | (.error (e, _), host) => (.error (.refused e), s, host)
        | (.ok w, host) =>
          (.ok w.handle,
            { s with watches := s.watches ++ [w], active := s.active ++ [w.handle] }, host)

/-- Registers a watch without patterns and with the configured choices. -/
def watch (s : Session) (host : Host) (path : String) :
    Except RegisterError Handle × Session × Host :=
  s.register host path s.config.includeSubtree s.config.filter []

def unregister (s : Session) (h : Handle) : Except WatchError Unit × Session :=
  if s.contains h then
    (.ok (), { s.update h Watch.close with active := s.active.filter fun a => a != h })
  else (.error (.unknownHandle h), s)

/-- Ends all watches and discards what is queued. The answer counts the watches that this has
closed. -/
def teardown (s : Session) : Nat × Session :=
  (s.watches.countP fun w => s.contains w.handle && w.closeOnce.1,
    { s with
      watches := s.watches.map fun w => if s.contains w.handle then w.close else w
      active := []
      queue := []
      tornDown := true
      totals := s.totals.add { Report.zero with discarded := s.queue.length } })

/-! ## What happens to the watches -/

/-- Hands a watch what the backend delivers. -/
def deliver (s : Session) (present : RawPath → Bool) (h : Handle) (delivery : Delivery) : Session :=
  s.update h (Watch.deliver present · delivery)

/-- Hands every active watch what the backend delivers. -/
def deliverToAll (s : Session) (present : RawPath → Bool) (delivery : Delivery) : Session :=
  s.active.foldl (fun s h => s.deliver present h delivery) s

/-- Puts the outcome of an activity of a watch in place: the watch afterwards and its reports. -/
def absorb (s : Session) (h : Handle) (reports : List Payload) (w : Watch) : Session :=
  { s.update h (fun _ => w) with queue := s.queue ++ reports.map fun p => ⟨h, p⟩ }

/-- Lets the worker of a watch look at its signal once. -/
def work (s : Session) (host : Host) (h : Handle) : Session × Host :=
  match s.watch? h with
  | none => (s, host)
  | some w =>
    match w.work host with
    | (reports, w, host) => (s.absorb h reports w, host)

/-- Runs the callback of a watch whether its signal is up or not. -/
def callBack (s : Session) (host : Host) (h : Handle) : Session × Host :=
  match s.watch? h with
  | none => (s, host)
  | some w =>
    match w.onReadComplete host with
    | (reports, w, host) => (s.absorb h reports w, host)

/-! ## Dispatch -/

/-- Tells whether a message comes too late. -/
def isEnded (s : Session) (m : Message) : Bool :=
  s.tornDown || ((s.watch? m.handle).all fun w => w.closed)

/-- Hands all that is queued to the handler; `fails` answers for it. -/
def dispatchPending (s : Session) (fails : Nat → Bool) : Pass × Session :=
  let pass := Pass.run s.isEnded fails s.queue
  (pass, { s with queue := [], totals := s.totals.add pass.report })

/-- Hands all that is queued to the handler, if there is anything. -/
def dispatchNext (s : Session) (fails : Nat → Bool) : Option (Pass × Session) :=
  if s.queue.isEmpty then none else some (s.dispatchPending fails)

end Session

end DirWatch
