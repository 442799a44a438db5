import DirWatch.Proofs.Directory.Chronicle
import DirWatch.Proofs.Directory.Steps

/-!
# Histories of a directory

A history is a directory with the chronicle of what has happened to its changes. `Directory.entries`
reads off the operations of the directory what they do to changes: what enters the journal, what a
read takes out of it, which completion is taken. The chronicle of a run leaves out no change that
was made (`History.made_run`) and no completion that was taken (`History.completions_run`).
-/

namespace DirWatch

namespace Directory

/-- What can happen to an open directory. -/
inductive Act where
  /-- The backend delivers something. -/
  | deliver (present : RawPath → Bool) (delivery : Delivery)
  | read (host : Host) (buffer : Buffer) (subtree : Bool) (filter : Filter) (signal : SignalName)
  | take
  | close

/-- The buffer of a read has a size that fits into 32 bits. -/
def Act.Small : Act → Prop
  | .read _ buffer _ _ _ => buffer.size < UInt32.size
  | _ => True

instance (act : Act) : Decidable act.Small :=
  match act with
  | .read _ buffer _ _ _ => inferInstanceAs (Decidable (buffer.size < UInt32.size))
  | .deliver _ _ => .isTrue trivial
  | .take => .isTrue trivial
  | .close => .isTrue trivial

def act (d : Directory) : Act → Directory
  | .deliver present delivery => (d.record present delivery).directory
  | .read host buffer subtree filter signal =>
    (d.read host buffer subtree filter signal).1.directory
  | .take => d.take.2
  | .close => d.close.directory

/-- What becomes of the change that is made of a delivery. -/
def enterEntries (present : RawPath → Bool) (d : Directory) (log : Chronicle) :
    Delivery → List Entry
  | .error _ => []
  | .ok notice =>
    if notice.rescan then [log.lose .rescan]
    else
      match notice.change? present d.root d.filter with
      | none => []
      | some c =>
        if d.journal.overflowed then [log.lose (.untold c)]
        else if (d.journal.push c).overflowed then [log.lose (.full c)]
        else [.kept c]

def enterAllEntries (present : RawPath → Bool) (d : Directory) (log : Chronicle) :
    List Delivery → List Entry
  | [] => []
  | delivery :: rest =>
    d.enterEntries present log delivery ++ (d.enter present delivery).enterAllEntries present
      (log ++ d.enterEntries present log delivery) rest

/-- What a read does to the changes when it ends: it gives up the first ones, if they are too large
for its buffer, and hands out the next. -/
def settleEntries (d : Directory) (log : Chronicle) : List Entry :=
  match d.slot with
  | .armed buffer _ =>
    if d.journal.hasOutput then
      let tooLarge := (Journal.oversized buffer.size d.journal.pending).length
      let handed := (Journal.handed buffer.size d.journal.pending).length
      [.ended (d.journal.complete buffer).1 (log.status.waiting.take tooLarge)
        ((log.status.waiting.drop tooLarge).take handed)]
    else []
  | _ => []

/-- The changes that are made while an act goes on. -/
def arrivals (d : Directory) : Act → List Change
  | .deliver present delivery =>
    if d.observation = .closed then [] else (delivery.change? present d.root d.filter).toList
  | .read host buffer subtree filter signal =>
    match (d.read host buffer subtree filter signal).1.answer with
    | .error _ => []
    | .ok () =>
      (d.deliveredAtOnce host).filterMap (Delivery.change? host.tree.pathExists d.root filter)
  | _ => []

def arrivalsOf (d : Directory) : List Act → List Change
  | [] => []
  | act :: rest => d.arrivals act ++ (d.act act).arrivalsOf rest

def completions (d : Directory) : Act → List Completion
  | .take => d.take.1.toList
  | _ => []

def completionsOf (d : Directory) : List Act → List Completion
  | [] => []
  | act :: rest => d.completions act ++ (d.act act).completionsOf rest

/-- What an act does to the changes of a directory. -/
def entries (d : Directory) (log : Chronicle) : Act → List Entry
  | .deliver present delivery =>
    if d.observation = .closed then []
    else
      let entered := d.enterEntries present log delivery
      entered ++ (d.enter present delivery).settleEntries (log ++ entered)
  | .read host buffer subtree filter signal =>
    match (d.read host buffer subtree filter signal).1.answer with
    | .error _ => []
    | .ok () =>
      let asked := { d with filter }
      let deliveries := d.deliveredAtOnce host
      let entered := asked.enterAllEntries host.tree.pathExists log deliveries
      entered ++ { asked.enterAll host.tree.pathExists deliveries with
        slot := .armed buffer signal }.settleEntries (log ++ entered)
  | .take =>
    match d.take.1 with
    | none => []
    | some completion => [.taken completion log.status.storedNumbers]
  | .close =>
    if d.observation = .closed then []
    else
      match d.slot with
      | .armed _ _ => [.ended (.failed abortedError) [] [], .shut log.status.waiting]
      | _ => [.shut log.status.waiting]

end Directory

/-- A directory with the chronicle of its changes. -/
structure History where
  directory : Directory
  log : Chronicle

namespace History

/-- A directory that has just been opened. -/
def start (root : RawPath) (capacity : Nat) : History := ⟨.fresh root capacity, []⟩

def step (h : History) (act : Directory.Act) : History :=
  ⟨h.directory.act act, h.log ++ h.directory.entries h.log act⟩

def run (h : History) (acts : List Directory.Act) : History := acts.foldl step h

end History

/-! ## What a chronicle tells -/

namespace Directory

open Chronicle

/-- A delivery makes one entry at most, with the change that is made of it. -/
theorem enterEntries_cases (present : RawPath → Bool) (d : Directory) (log : Chronicle)
    (delivery : Delivery) :
    (d.enterEntries present log delivery = [] ∧ delivery.change? present d.root d.filter = none) ∨
    ∃ e, d.enterEntries present log delivery = [e] ∧
      e.change? = delivery.change? present d.root d.filter ∧ e.completion? = none := by
  cases delivery with
  | error e => exact .inl ⟨rfl, rfl⟩
  | ok notice =>
    rw [enterEntries, Delivery.change?]
    split
    · exact .inr ⟨_, rfl, rfl, rfl⟩
    · cases notice.change? present d.root d.filter with
      | none => exact .inl ⟨rfl, rfl⟩
      | some c =>
        simp only
        split
        · exact .inr ⟨_, rfl, rfl, rfl⟩
        · split
          · exact .inr ⟨_, rfl, rfl, rfl⟩
          · exact .inr ⟨_, rfl, rfl, rfl⟩

theorem made_enterEntries (present : RawPath → Bool) (d : Directory) (log : Chronicle)
    (delivery : Delivery) :
    made (d.enterEntries present log delivery) =
      (delivery.change? present d.root d.filter).toList := by
  rcases d.enterEntries_cases present log delivery with ⟨none_made, no_change⟩ | ⟨e, one, change, -⟩
  · rw [none_made, no_change]
    rfl
  · rw [one, ← change]
    exact made_snoc [] e

theorem made_enterAllEntries (present : RawPath → Bool) (d : Directory) (log : Chronicle)
    (deliveries : List Delivery) :
    made (d.enterAllEntries present log deliveries) =
      deliveries.filterMap (Delivery.change? present d.root d.filter) := by
  induction deliveries generalizing d log with
  | nil => rfl
  | cons delivery rest ih =>
    rw [enterAllEntries, made_append, made_enterEntries, ih, List.filterMap_cons, enter_eq]
    cases delivery.change? present d.root d.filter <;> rfl

theorem made_settleEntries (d : Directory) (log : Chronicle) : made (d.settleEntries log) = [] := by
  rw [settleEntries]
  split
  · split <;> rfl
  · rfl

theorem made_entries (d : Directory) (log : Chronicle) (act : Act) :
    made (d.entries log act) = d.arrivals act := by
  cases act with
  | deliver present delivery =>
    rw [entries, arrivals]
    split
    · rfl
    · rw [made_append, made_enterEntries, made_settleEntries, List.append_nil]
  | read host buffer subtree filter signal =>
    rw [entries, arrivals]
    split
    · rfl
    · rw [made_append, made_enterAllEntries, made_settleEntries, List.append_nil]
  | take =>
    rw [entries]
    split <;> rfl
  | close =>
    rw [entries]
    split
    · rfl
    · split <;> rfl

theorem completions_enterEntries (present : RawPath → Bool) (d : Directory) (log : Chronicle)
    (delivery : Delivery) : Chronicle.completions (d.enterEntries present log delivery) = [] := by
  rcases d.enterEntries_cases present log delivery with ⟨none_made, -⟩ | ⟨e, one, -, none_taken⟩
  · rw [none_made]
    rfl
  · rw [one, show [e] = [] ++ [e] from rfl, completions_snoc, none_taken]
    rfl

theorem completions_enterAllEntries (present : RawPath → Bool) (d : Directory) (log : Chronicle)
    (deliveries : List Delivery) :
    Chronicle.completions (d.enterAllEntries present log deliveries) = [] := by
  induction deliveries generalizing d log with
  | nil => rfl
  | cons delivery rest ih =>
    rw [enterAllEntries, completions_append, completions_enterEntries, ih, List.append_nil]

theorem completions_settleEntries (d : Directory) (log : Chronicle) :
    Chronicle.completions (d.settleEntries log) = [] := by
  rw [settleEntries]
  split
  · split <;> rfl
  · rfl

theorem completions_entries (d : Directory) (log : Chronicle) (act : Act) :
    Chronicle.completions (d.entries log act) = d.completions act := by
  cases act with
  | deliver present delivery =>
    rw [entries, show d.completions (.deliver present delivery) = [] from rfl]
    split
    · rfl
    · rw [completions_append, completions_enterEntries, completions_settleEntries, List.append_nil]
  | read host buffer subtree filter signal =>
    rw [entries, show d.completions (.read host buffer subtree filter signal) = [] from rfl]
    split
    · rfl
    · rw [completions_append, completions_enterAllEntries, completions_settleEntries,
        List.append_nil]
  | take =>
    rw [entries, completions]
    split
    · next none_taken => rw [none_taken]; rfl
    · next taken => rw [taken]; rfl
  | close =>
    rw [entries]
    split
    · rfl
    · split <;> rfl

end Directory

/-! ## Runs -/

namespace History

theorem run_append (h : History) (acts more : List Directory.Act) :
    h.run (acts ++ more) = (h.run acts).run more := List.foldl_append

/-- A chronicle tells all changes that are made. -/
theorem made_run (h : History) (acts : List Directory.Act) :
    (h.run acts).log.made = h.log.made ++ h.directory.arrivalsOf acts := by
  induction acts generalizing h with
  | nil => exact (List.append_nil _).symm
  | cons act rest ih =>
    rw [show h.run (act :: rest) = (h.step act).run rest from rfl, ih, step, Chronicle.made_append,
      Directory.made_entries, List.append_assoc]
    rfl

/-- A chronicle tells all completions that are taken. -/
theorem completions_run (h : History) (acts : List Directory.Act) :
    (h.run acts).log.completions = h.log.completions ++ h.directory.completionsOf acts := by
  induction acts generalizing h with
  | nil => exact (List.append_nil _).symm
  | cons act rest ih =>
    rw [show h.run (act :: rest) = (h.step act).run rest from rfl, ih, step,
      Chronicle.completions_append, Directory.completions_entries, List.append_assoc]
    rfl

end History

end DirWatch
