import DirWatch.Directory.Basic
import DirWatch.Proofs.Directory.Packing

/-!
# What the operations of a directory do

One lemma says what each operation of an open directory can do to its journal and to its read, so
that later proofs need not look into it: `Directory.enterAll_kept` for deliveries that lose nothing,
`Directory.settle_cases` for the end of a read, `Directory.read_outcome` for a read that is asked
for. `Journal.Sound` is what every journal keeps.
-/

namespace DirWatch

/-- The change that a directory makes of a delivery, if it makes one. Errors and the news that
notices were lost carry none. -/
def Delivery.change? (present : RawPath → Bool) (root : RawPath) (filter : Filter) :
    Delivery → Option Change
  | .ok notice => if notice.rescan then none else notice.change? present root filter
  | .error _ => none

namespace Journal

/-- What every journal keeps: all that waits has a name, and nothing waits behind the news of a
loss. -/
structure Sound (j : Journal) : Prop where
  named : ∀ c ∈ j.pending, c.Named
  emptied : j.overflowed = true → j.pending = []

variable {j : Journal}

theorem sound_empty (capacity : Nat) : (empty capacity).Sound where
  named c h := by simp [empty] at h
  emptied _ := rfl

theorem sound_overflow (j : Journal) : j.overflow.Sound where
  named c h := by simp [overflow] at h
  emptied _ := rfl

theorem Sound.fail (h : j.Sound) (e : IoError) : (j.fail e).Sound := ⟨h.named, h.emptied⟩

theorem Sound.push (h : j.Sound) {c : Change} (named : c.Named) : (j.push c).Sound := by
  unfold Journal.push
  split
  · exact h
  · next kept =>
    split
    · exact sound_overflow j
    · refine ⟨fun d hd => ?_, fun lost => absurd lost kept⟩
      rcases List.mem_append.mp hd with old | new
      · exact h.named d old
      · rwa [List.mem_singleton.mp new]

/-- A change that does not make the journal overflow waits behind the others. -/
theorem push_kept {c : Change} (kept : (j.push c).overflowed = false) :
    j.overflowed = false ∧ (j.push c).pending = j.pending ++ [c] := by
  unfold Journal.push at kept ⊢
  split at kept
  · next lost => simp [lost] at kept
  · next before =>
    split at kept
    · simp [overflow] at kept
    · next room =>
      rw [if_neg before, if_neg room]
      exact ⟨by simpa using before, rfl⟩

/-- A change makes a journal overflow when as many wait as there is room for. -/
theorem push_full {c : Change} (told : j.overflowed = false) (full : (j.push c).overflowed = true) :
    j.capacity ≤ j.pending.length := by
  unfold Journal.push at full
  split at full
  · next lost => simp [told] at lost
  · split at full
    · next none_left => exact none_left
    · simp [told] at full

theorem push_capacity (j : Journal) (c : Change) : (j.push c).capacity = j.capacity := by
  unfold Journal.push
  split
  · rfl
  · split <;> rfl

theorem complete_capacity (j : Journal) (buffer : Buffer) :
    (j.complete buffer).2.capacity = j.capacity := by
  unfold complete
  split
  · rfl
  · split <;> rfl

theorem hasOutput_eq_false : j.hasOutput = false ↔
    j.pending = [] ∧ j.overflowed = false ∧ j.failure = none := by
  simp [hasOutput, and_assoc]

/-- What the end of a read does to a sound journal: changes are handed out unless nothing waits, and
the news of a loss comes before all else. -/
theorem Sound.complete_parts (h : j.Sound) (buffer : Buffer) (small : buffer.size < UInt32.size) :
    (j.complete buffer).1.changes = handed buffer.size j.pending ∧
      (j.complete buffer).2.pending = remaining buffer.size j.pending ∧
      (j.pending ≠ [] → ∃ filled bytes, (j.complete buffer).1 = .done filled bytes ∧
        filled.size = buffer.size) ∧
      (j.overflowed = true → (j.complete buffer).1 = .done buffer 0) := by
  cases lost : j.overflowed with
  | true =>
    -- a journal that lost changes holds none, so that there is nothing to hand out
    have empty := h.emptied lost
    have nothing : Record.decode buffer 0 = [] := (RecordWriter.Written.start buffer).decode_eq
    rw [complete_overflowed lost, empty]
    exact ⟨nothing, rfl, fun some_change => absurd rfl some_change, fun _ => rfl⟩
  | false =>
    have output : (j.pending = [] ∧ ∃ e, j.failure = some e) ∨
        (j.pending ≠ [] ∨ j.failure = none) := by
      cases failed : j.failure with
      | none => exact .inr (.inr rfl)
      | some e =>
        rcases Decidable.em (j.pending = []) with empty | some_change
        · exact .inl ⟨empty, e, rfl⟩
        · exact .inr (.inl some_change)
    rcases output with ⟨empty, e, failed⟩ | output
    · rw [complete_failed lost empty failed, empty]
      exact ⟨rfl, rfl, fun some_change => absurd rfl some_change, fun told => by simp at told⟩
    · obtain ⟨filled, bytes, completes, decodes, size, -⟩ :=
        complete_packed lost output small h.named
      rw [completes]
      exact ⟨decodes, rfl, fun _ => ⟨filled, bytes, rfl, size⟩, fun told => by simp at told⟩

theorem Sound.complete (h : j.Sound) (buffer : Buffer) : (j.complete buffer).2.Sound := by
  obtain ⟨left, told⟩ := complete_pending_suffix j buffer
  exact ⟨fun c hc => h.named c (left.subset hc), fun lost => absurd lost (by simp [told])⟩

end Journal

namespace Directory

variable {d : Directory} {present : RawPath → Bool} {delivery : Delivery}

/-! ## Deliveries -/

/-- A delivery changes nothing but the journal. -/
theorem enter_eq (present : RawPath → Bool) (d : Directory) (delivery : Delivery) :
    d.enter present delivery = { d with journal := (d.enter present delivery).journal } := by
  unfold enter
  split
  · rfl
  · split
    · rfl
    · split <;> rfl

theorem enterAll_eq (present : RawPath → Bool) (d : Directory) (deliveries : List Delivery) :
    d.enterAll present deliveries =
      { d with journal := (d.enterAll present deliveries).journal } := by
  induction deliveries generalizing d with
  | nil => rfl
  | cons delivery rest ih =>
    have step : d.enterAll present (delivery :: rest) =
        (d.enter present delivery).enterAll present rest := rfl
    rw [step, ih, enter_eq]

/-- What is entered into the journal depends on the root and the filter only. -/
theorem enterAll_congr {d d' : Directory} (root : d'.root = d.root) (filter : d'.filter = d.filter)
    (journal : d'.journal = d.journal) (present : RawPath → Bool) (deliveries : List Delivery) :
    (d'.enterAll present deliveries).journal = (d.enterAll present deliveries).journal := by
  induction deliveries generalizing d d' with
  | nil => exact journal
  | cons delivery rest ih =>
    have next_root : (d'.enter present delivery).root = (d.enter present delivery).root := by
      rw [enter_eq present d, enter_eq present d', root]
    have next_filter : (d'.enter present delivery).filter = (d.enter present delivery).filter := by
      rw [enter_eq present d, enter_eq present d', filter]
    have next_journal :
        (d'.enter present delivery).journal = (d.enter present delivery).journal := by
      cases delivery with
      | error e => simp only [enter, journal]
      | ok notice =>
        simp only [enter, root, filter, journal]
        split
        · rfl
        · split
          · exact journal
          · rfl
    exact ih next_root next_filter next_journal

theorem enter_sound (sound : d.journal.Sound) : (d.enter present delivery).journal.Sound := by
  cases delivery with
  | error e => exact sound.fail e.toIo
  | ok notice =>
    rw [enter]
    split
    · exact Journal.sound_overflow _
    · split
      · exact sound
      · next found => exact sound.push (Notice.change?_named found)

/-- A delivery that does not leave the journal overflowed adds the change that the directory makes
of it. -/
theorem enter_kept (kept : (d.enter present delivery).journal.overflowed = false) :
    d.journal.overflowed = false ∧
      (d.enter present delivery).journal.pending =
        d.journal.pending ++ (delivery.change? present d.root d.filter).toList := by
  cases delivery with
  | error e => exact ⟨kept, (List.append_nil _).symm⟩
  | ok notice =>
    rw [enter] at kept ⊢
    rw [Delivery.change?]
    split at kept
    · simp [Journal.overflow] at kept
    · next known =>
      rw [if_neg known, if_neg known]
      split at kept
      · next none_found =>
        rw [none_found]
        exact ⟨kept, (List.append_nil _).symm⟩
      · next c found =>
        rw [found]
        exact Journal.push_kept kept

/-- Several deliveries that do not leave the journal overflowed add the changes that the directory
makes of them, in order. -/
theorem enterAll_kept {deliveries : List Delivery}
    (kept : (d.enterAll present deliveries).journal.overflowed = false) :
    d.journal.overflowed = false ∧
      (d.enterAll present deliveries).journal.pending =
        d.journal.pending ++ deliveries.filterMap (Delivery.change? present d.root d.filter) := by
  induction deliveries generalizing d with
  | nil => exact ⟨kept, (List.append_nil _).symm⟩
  | cons delivery rest ih =>
    have step : d.enterAll present (delivery :: rest) =
        (d.enter present delivery).enterAll present rest := rfl
    rw [step] at kept ⊢
    obtain ⟨kept_here, pending⟩ := ih kept
    obtain ⟨before, here⟩ := enter_kept kept_here
    refine ⟨before, ?_⟩
    rw [pending, here, enter_eq, List.filterMap_cons]
    cases delivery.change? present d.root d.filter <;> simp

theorem enterAll_sound {deliveries : List Delivery} (sound : d.journal.Sound) :
    (d.enterAll present deliveries).journal.Sound := by
  induction deliveries generalizing d with
  | nil => exact sound
  | cons delivery rest ih => exact ih (d := d.enter present delivery) (enter_sound sound)

/-! ## The end of a read -/

/-- A read that is armed ends if there is something to tell, and raises its signal; otherwise
nothing happens. -/
theorem settle_cases (d : Directory) :
    (∃ buffer signal, d.slot = .armed buffer signal ∧ d.journal.hasOutput = true ∧
      d.settle = ⟨{ d with
        journal := (d.journal.complete buffer).2
        slot := .finished (d.journal.complete buffer).1 }, (), some signal⟩) ∨
    ((∀ buffer signal, d.slot = .armed buffer signal → d.journal.hasOutput = false) ∧
      d.settle = ⟨d, (), none⟩) := by
  unfold settle
  split
  · next buffer signal armed =>
    split
    · next output => exact .inl ⟨buffer, signal, armed, output, rfl⟩
    · next silent =>
      refine .inr ⟨fun _ _ _ => ?_, rfl⟩
      simpa using silent
  · next idle => exact .inr ⟨fun buffer signal armed => absurd armed (idle buffer signal), rfl⟩

theorem settle_of_output {buffer : Buffer} {signal : SignalName}
    (armed : d.slot = .armed buffer signal) (output : d.journal.hasOutput = true) :
    d.settle = ⟨{ d with
      journal := (d.journal.complete buffer).2
      slot := .finished (d.journal.complete buffer).1 }, (), some signal⟩ := by
  rw [settle, armed]
  simp only [output, if_true]

/-! ## Reads -/

theorem observe_refused {host : Host} {e : BackendError} (idle : d.observation = .idle)
    (refusal : host.watchFailure = some e) (subtree : Bool) :
    d.observe host subtree = (.error e.toIo, { host with watchFailure := none }) := by
  have refused : host.observe d.root = (.error e, { host with watchFailure := none }) := by
    rw [Host.observe, refusal]
  simp only [observe, idle, refused]

/-- The backend observes a directory, and what it delivers at once is entered. -/
theorem observe_allowed {host : Host} (idle : d.observation = .idle)
    (allowed : host.watchFailure = none) (subtree : Bool) :
    d.observe host subtree = (.ok { d.enterAll host.tree.pathExists (host.atOnce d.root) with
      observation := .observing subtree }, host) := by
  have observed : host.observe d.root = (.ok (host.atOnce d.root), host) := by
    rw [Host.observe, allowed]
  have entered : (({ d with observation := .observing subtree } : Directory).enterAll
      host.tree.pathExists (host.atOnce d.root)).journal =
        (d.enterAll host.tree.pathExists (host.atOnce d.root)).journal := by
    apply enterAll_congr <;> rfl
  have others := enterAll_eq host.tree.pathExists d (host.atOnce d.root)
  simp only [observe, idle, observed]
  rw [enterAll_eq, entered, others]

/-- A directory without a read asks the backend to observe it first. -/
theorem read_idle {host : Host} {buffer : Buffer} {subtree : Bool} {filter : Filter}
    {signal : SignalName} (not_closed : d.observation ≠ .closed) (idle : d.slot = .idle) :
    d.read host buffer subtree filter signal =
      match ({ d with filter } : Directory).observe host subtree with
      | (.error e, host) => (⟨{ d with filter }, .error e, none⟩, host)
      | (.ok observed, host) =>
        (⟨({ observed with slot := .armed buffer signal }.settle).directory, .ok (),
          ({ observed with slot := .armed buffer signal }.settle).raised⟩, host) := by
  rw [read, if_neg not_closed]
  split
  · rfl
  · next busy => exact absurd idle busy

theorem read_busy {host : Host} {buffer : Buffer} {subtree : Bool} {filter : Filter}
    {signal : SignalName} (not_closed : d.observation ≠ .closed) (busy : d.slot ≠ .idle) :
    d.read host buffer subtree filter signal = (⟨d, .error busyError, none⟩, host) := by
  rw [read, if_neg not_closed]
  split
  · next idle => exact absurd idle busy
  · rfl

/-- A directory that is observed and has no read under way takes a read. -/
theorem read_observing {subtree subtree' : Bool} {host : Host} {buffer : Buffer} {filter : Filter}
    {signal : SignalName} (observing : d.observation = .observing subtree)
    (idle : d.slot = .idle) :
    d.read host buffer subtree' filter signal =
      (⟨({ d with filter, slot := .armed buffer signal }.settle).directory, .ok (),
        ({ d with filter, slot := .armed buffer signal }.settle).raised⟩, host) := by
  rw [read_idle (by simp [observing]) idle]
  simp only [observe, observing]

/-- What is delivered when a read is accepted. -/
def deliveredAtOnce (d : Directory) (host : Host) : List Delivery :=
  if d.observation = .idle then host.atOnce d.root else []

/-- What can be taken depends on the read only. -/
theorem take_congr {d' : Directory} (slot : d'.slot = d.slot) : d'.take.1 = d.take.1 := by
  rw [take, take, slot]
  split <;> rfl

/-- A read is refused and changes nothing but the filter, or what is delivered at once is entered
and the read waits, unless there is something to tell. -/
theorem read_cases (d : Directory) (host : Host) (buffer : Buffer) (subtree : Bool)
    (filter : Filter) (signal : SignalName) :
    (∃ e, (d.read host buffer subtree filter signal).1.answer = .error e ∧
      ((d.read host buffer subtree filter signal).1.directory = d ∨
        (d.read host buffer subtree filter signal).1.directory = { d with filter })) ∨
    (d.observation ≠ .closed ∧ d.slot = .idle ∧
      (d.read host buffer subtree filter signal).1.answer = .ok () ∧
      ∃ subtree', (d.read host buffer subtree filter signal).1.directory =
        ({ ({ d with filter } : Directory).enterAll host.tree.pathExists
            (d.deliveredAtOnce host) with
          slot := .armed buffer signal
          observation := .observing subtree' }.settle).directory) := by
  rcases Decidable.em (d.observation = .closed) with closed | not_closed
  · rw [read, if_pos closed]
    exact .inl ⟨closedError, rfl, .inl rfl⟩
  · rcases Classical.em (d.slot = .idle) with idle | busy
    · have observation :
          (∃ subtree', d.observation = .observing subtree') ∨ d.observation = .idle := by
        cases observation : d.observation with
        | closed => exact absurd observation not_closed
        | observing subtree' => exact .inl ⟨subtree', rfl⟩
        | idle => exact .inr rfl
      rcases observation with ⟨subtree', observing⟩ | unobserved
      · rw [read_observing observing idle, deliveredAtOnce, if_neg (by simp [observing])]
        exact .inr ⟨not_closed, idle, rfl, subtree', by rw [← observing]; rfl⟩
      · -- only the first read asks the backend, which may refuse
        rw [read_idle not_closed idle, deliveredAtOnce, if_pos unobserved]
        cases refusal : host.watchFailure with
        | some e =>
          rw [observe_refused (d := { d with filter }) unobserved refusal]
          exact .inl ⟨e.toIo, rfl, .inr rfl⟩
        | none =>
          rw [observe_allowed (d := { d with filter }) unobserved refusal]
          exact .inr ⟨not_closed, idle, rfl, subtree, rfl⟩
    · rw [read_busy not_closed busy]
      exact .inl ⟨busyError, rfl, .inl rfl⟩

/-- The backend refuses to observe a directory, or the directory is open and observed. -/
theorem observe_outcome (not_closed : d.observation ≠ .closed) (host : Host) (subtree : Bool) :
    (∃ e host', d.observe host subtree = (.error e, host')) ∨
    ∃ (observed : Directory) (host' : Host),
      d.observe host subtree = (.ok observed, host') ∧ observed.observation ≠ .closed := by
  rw [observe]
  split
  · next closed => exact absurd closed not_closed
  · exact .inr ⟨d, host, rfl, not_closed⟩
  · split
    · exact .inl ⟨_, _, rfl⟩
    · refine .inr ⟨_, _, rfl, ?_⟩
      rw [enterAll_eq]
      simp

/-- A read is refused, and the one under way is left alone, or none is under way and it is accepted:
then it is armed, and ends at once if there is something to tell. -/
theorem read_outcome (d : Directory) (host : Host) (buffer : Buffer) (subtree : Bool)
    (filter : Filter) (signal : SignalName) :
    (∃ d' e host', d.read host buffer subtree filter signal = (⟨d', .error e, none⟩, host') ∧
      d'.slot = d.slot) ∨
    ∃ (asked : Directory) (host' : Host), d.read host buffer subtree filter signal =
        (⟨asked.settle.directory, .ok (), asked.settle.raised⟩, host') ∧
      asked.slot = .armed buffer signal ∧ asked.observation ≠ .closed ∧ d.slot = .idle := by
  by_cases closed : d.observation = .closed
  · rw [read, if_pos closed]
    exact .inl ⟨d, closedError, host, rfl, rfl⟩
  · rcases Classical.em (d.slot = .idle) with idle | busy
    · rw [read_idle closed idle]
      rcases observe_outcome (d := { d with filter }) closed host subtree with
        ⟨e, host', refuses⟩ | ⟨observed, host', observes, still_open⟩
      · rw [refuses]
        exact .inl ⟨_, e, host', rfl, rfl⟩
      · rw [observes]
        exact .inr ⟨{ observed with slot := .armed buffer signal }, host', rfl, rfl, still_open,
          idle⟩
    · rw [read_busy closed busy]
      exact .inl ⟨d, busyError, host, rfl, rfl⟩

/-! ## Closing -/

/-- A read that waits fails when its directory is closed. -/
theorem close_armed {buffer : Buffer} {signal : SignalName} (not_closed : d.observation ≠ .closed)
    (armed : d.slot = .armed buffer signal) :
    d.close = ⟨{ d with
      observation := .closed
      journal := { d.journal with pending := [] }
      slot := .finished (.failed abortedError) }, true, some signal⟩ := by
  rw [close, if_neg not_closed, armed]

theorem close_unarmed (not_closed : d.observation ≠ .closed)
    (unarmed : ∀ buffer signal, d.slot ≠ .armed buffer signal) :
    d.close = ⟨{ d with
      observation := .closed
      journal := { d.journal with pending := [] } }, false, none⟩ := by
  rw [close, if_neg not_closed]
  split
  · next armed => exact absurd armed (unarmed _ _)
  · rfl

theorem observation_close (d : Directory) : d.close.directory.observation = .closed := by
  rw [close]
  split
  · next closed => exact closed
  · split <;> rfl

end Directory

end DirWatch
