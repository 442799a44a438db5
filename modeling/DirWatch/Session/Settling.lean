import DirWatch.Session.Basic

/-!
# Settling

The workers of a session go on as long as their signals are up. What a watch still has to tell
bounds how often its worker runs, so a session settles when nothing new is delivered.
-/

namespace DirWatch.Session

/-- Lets the worker of a watch run as long as the signal is up, at most `limit` times. The answer
begins with the number of times. -/
def workUpTo (s : Session) (host : Host) (h : Handle) (limit : Nat) : Nat × Session × Host :=
  match s.watch? h with
  | none => (0, s, host)
  | some w =>
    match w.workUpTo host limit with
    | (calls, reports, w, host) => (calls, s.absorb h reports w, host)

/-- Lets the worker of a watch run until it has told all that the watch has to tell. -/
def settleWatch (s : Session) (host : Host) (w : Watch) : Session × Host :=
  (s.workUpTo host w.handle (w.backlog + 1)).2

/-- Lets every worker run until it has told all that its watch has to tell, in the order of the
handles. -/
def settle (s : Session) (host : Host) : Session × Host :=
  s.watches.foldl (fun (st : Session × Host) w => st.1.settleWatch st.2 w) (s, host)

end DirWatch.Session
