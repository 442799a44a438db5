import DirWatch.Proofs.Session.Accounts

/-!
# No change is lost on the way

The changes of a watch pass through its journal, the buffer of its read and the queue before the
handler sees them. `World.changes_conserved` says that, as long as the journal gives up nothing, the
four together hold exactly the changes that arrived, in order: nothing but what is too large for
the buffer or not admitted by the patterns is missing.
-/

namespace DirWatch

/-- The changes of a completion that has not been taken yet, as far as the patterns admit them. -/
def Directory.untaken (d : Directory) (patterns : Patterns) : List Change :=
  match d.take.1 with
  | some (.done buffer bytes) => Record.decodeFiltered buffer bytes patterns
  | _ => []

/-- What a directory at a stage has not handed out is what the stage holds. -/
theorem Watch.untaken_directoryAt (w : Watch) (root : RawPath) (stage : Stage) (j : Journal)
    (patterns : Patterns) :
    (w.directoryAt root stage j).untaken patterns = stage.held patterns := by
  match stage with
  | .waiting buffer => rfl
  | .ready (.done buffer bytes) => rfl
  | .ready (.failed e) => rfl
  | .ended => rfl

namespace World

/-- For every active watch, in every world that can come about: what the handler has seen, what is
queued, what a completion holds that nobody has taken, and what waits in the journal and is to be
reported are together the changes that the directory has made of all that arrived and that are to
be reported, in this order, if the journal never gave changes up and the buffer has less than 4 GiB.
-/
theorem changes_conserved {world : World} (reachable : world.Reachable true) {h : Handle}
    (active : h ∈ world.session.active)
    (undisturbed : ∀ x ∈ world.arrivalsAt h, x.overflowed = false) :
    ∃ w, world.session.activeWatch? h = some w ∧
      (w.settings.bufferSize < UInt32.size → ∃ d, w.directory = some d ∧
        (world.seenBy h).flatMap Payload.changeList ++
            (world.queuedBy h).flatMap Payload.changeList ++
            d.untaken w.settings.patterns ++
            d.journal.pending.filter w.settings.reports =
          ((world.arrivalsAt h).flatMap fun x => x.deliveries.filterMap
            (Delivery.change? x.present d.root w.settings.filter)).filter w.settings.reports) := by
  obtain ⟨w, found, rfl, lives⟩ := reachable.accounted.activeWatch active
  obtain ⟨root, stage, j, l, holds⟩ := lives.holds
  refine ⟨w, found, fun small => ⟨w.directoryAt root stage j, holds.stands.opened, ?_⟩⟩
  have balance := (holds.ledger small undisturbed).balance
  rw [Watch.untaken_directoryAt]
  exact balance

/-- A file comes to be in the root of the file system. -/
def created (name : UInt8) : Delivery := .ok ⟨.create .file, [[RawPath.slash, name]], false⟩

/-- A watch of the root of an empty file system, with room for one record in its buffer. Four files
come: one change is seen, one is queued, one is held by a completion and one waits. -/
def fourFiles : World :=
  (start { bufferSize := 16 } { tree := ⟨[], []⟩ }).run
    [.watch "/", .deliver ⟨1⟩ (created 97), .work ⟨1⟩, .dispatch fun _ => false,
      .deliver ⟨1⟩ (created 98), .work ⟨1⟩, .deliver ⟨1⟩ (created 99), .deliver ⟨1⟩ (created 100)]

theorem changes_conserved_fourFiles :
    fourFiles.Reachable true ∧ ⟨1⟩ ∈ fourFiles.session.active ∧
      (∀ x ∈ fourFiles.arrivalsAt ⟨1⟩, x.overflowed = false) ∧
      ∃ w d, fourFiles.session.activeWatch? ⟨1⟩ = some w ∧ w.directory = some d ∧
        (fourFiles.seenBy ⟨1⟩).flatMap Payload.changeList ++
            (fourFiles.queuedBy ⟨1⟩).flatMap Payload.changeList ++
            d.untaken w.settings.patterns ++
            d.journal.pending.filter w.settings.reports =
          ((fourFiles.arrivalsAt ⟨1⟩).flatMap fun x => x.deliveries.filterMap
            (Delivery.change? x.present d.root w.settings.filter)).filter w.settings.reports := by
  have reachable : fourFiles.Reachable true :=
    ⟨_, _, _, fun strict => by simp at strict, rfl⟩
  have ran : (fourFiles.session.active,
      (fourFiles.arrivalsAt ⟨1⟩).map fun x => x.overflowed,
      (fourFiles.session.activeWatch? ⟨1⟩).map fun w => w.settings.bufferSize) =
        ([⟨1⟩], [false, false, false, false, false], some 16) := by decide +kernel
  obtain ⟨active, others⟩ := Prod.mk.inj ran
  obtain ⟨quiet, size⟩ := Prod.mk.inj others
  have is_active : ⟨1⟩ ∈ fourFiles.session.active := by simp [active]
  have undisturbed : ∀ x ∈ fourFiles.arrivalsAt ⟨1⟩, x.overflowed = false := by
    intro x hx
    have := List.mem_map_of_mem (f := fun x : Arrival => x.overflowed) hx
    simpa [quiet] using this
  obtain ⟨w, found, conserved⟩ := changes_conserved reachable is_active undisturbed
  have small : w.settings.bufferSize = 16 := by simpa [found] using size
  obtain ⟨d, opened, balance⟩ := conserved (by rw [small]; decide)
  exact ⟨reachable, is_active, undisturbed, w, d, found, opened, balance⟩

end World

end DirWatch
