import DirWatch.Proofs.Session.Lookup
import DirWatch.Proofs.Session.World
import DirWatch.Proofs.Watch.Lives

/-!
# What holds of the watches of a session

`World.Accounted` is the invariant of a session: handles are given once, the account of an active
watch is that of a watch that lives, and a watch that is not active holds nothing any more. Two
lemmas carry it on, whatever the occasion: one watch changes (`World.Accounted.change`), or one
joins the others (`World.Accounted.add`).
-/

namespace DirWatch

namespace World

/-- What holds of a session and its watches at any time. -/
structure Accounted (loose : Bool) (world : World) : Prop where
  distinct : (world.session.watches.map Watch.handle).Nodup
  below : ∀ w ∈ world.session.watches, w.handle.number < world.host.nextHandle
  known : ∀ h ∈ world.session.active, ∃ w ∈ world.session.watches, w.handle = h
  lived : ∀ w ∈ world.session.watches, w.handle ∈ world.session.active →
    (world.account w).Lived loose
  ended : ∀ w ∈ world.session.watches, w.handle ∉ world.session.active → w.Shut ∧ w.Counted
  torn : world.session.tornDown = true → world.session.active = []
  /-- Nothing has happened to watches that are still to come. -/
  fresh : ∀ w : Watch, world.host.nextHandle ≤ w.handle.number →
    world.account w = ⟨w, [], [], [], [], []⟩

variable {loose : Bool} {world world' : World}

theorem accounted_start (config : MonitorConfig) (host : Host) :
    (start config host).Accounted loose where
  distinct := List.nodup_nil
  below w hw := by simp [start, Session.new] at hw
  known h hh := by simp [start, Session.new] at hh
  lived w hw := by simp [start, Session.new] at hw
  ended w hw := by simp [start, Session.new] at hw
  torn h := rfl
  fresh w _ := rfl

/-- Watches that change keep their handles, and with them what these promise. -/
theorem Accounted.handles (h : world.Accounted loose) {f : Watch → Watch}
    (watches : world'.session.watches = world.session.watches.map f)
    (numbers : world'.host.nextHandle = world.host.nextHandle)
    (same : ∀ v ∈ world.session.watches, (f v).handle = v.handle) :
    (world'.session.watches.map Watch.handle).Nodup ∧
      (∀ v ∈ world'.session.watches, v.handle.number < world'.host.nextHandle) ∧
      ∀ k ∈ world.session.active, ∃ v ∈ world'.session.watches, v.handle = k := by
  rw [watches, numbers]
  refine ⟨?_, fun v' hv' => ?_, fun k hk => ?_⟩
  · have handles : (world.session.watches.map f).map Watch.handle =
        world.session.watches.map Watch.handle := by
      rw [List.map_map]
      exact List.map_congr_left same
    rw [handles]
    exact h.distinct
  · obtain ⟨v, hv, rfl⟩ := List.mem_map.mp hv'
    rw [same v hv]
    exact h.below v hv
  · obtain ⟨v, hv, named⟩ := h.known k hk
    exact ⟨f v, List.mem_map_of_mem hv, (same v hv).trans named⟩

/-- One watch changes, and nothing that belongs to another. -/
theorem Accounted.change (h : world.Accounted loose) {w : Watch} {f : Watch → Watch}
    (mem : w ∈ world.session.watches)
    (watches : world'.session.watches =
      world.session.watches.map fun v => if v.handle = w.handle then f v else v)
    (active : world'.session.active = world.session.active)
    (torn : world'.session.tornDown = world.session.tornDown)
    (numbers : world'.host.nextHandle = world.host.nextHandle)
    (elsewhere : ∀ v : Watch, v.handle ≠ w.handle → world'.account v = world.account v)
    (handle : (f w).handle = w.handle)
    (lived : (world.account w).Lived loose → (world'.account (f w)).Lived loose)
    (ended : w.Shut ∧ w.Counted → (f w).Shut ∧ (f w).Counted) : world'.Accounted loose := by
  -- handles are given once, so that no other watch is changed along with this one
  have only : ∀ v ∈ world.session.watches, v.handle = w.handle → v = w :=
    fun v hv named => List.inj_on_of_nodup_map h.distinct hv mem named
  have handles : ∀ v ∈ world.session.watches,
      (if v.handle = w.handle then f v else v).handle = v.handle := by
    intro v hv
    split
    · next named =>
      rw [only v hv named]
      exact handle
    · rfl
  have origin : ∀ v' ∈ world'.session.watches,
      v' = f w ∨ (v' ∈ world.session.watches ∧ v'.handle ≠ w.handle) := by
    intro v' hv'
    rw [watches] at hv'
    obtain ⟨v, hv, rfl⟩ := List.mem_map.mp hv'
    split
    · next named => exact .inl (by rw [only v hv named])
    · next other => exact .inr ⟨hv, other⟩
  obtain ⟨distinct, below, known⟩ := h.handles watches numbers handles
  refine ⟨distinct, below, ?_, ?_, ?_, ?_, ?_⟩
  · rw [active]
    exact known
  · intro v' hv' is_active
    rw [active] at is_active
    rcases origin v' hv' with rfl | ⟨hv, other⟩
    · rw [handle] at is_active
      exact lived (h.lived w mem is_active)
    · rw [elsewhere v' other]
      exact h.lived v' hv is_active
  · intro v' hv' not_active
    rw [active] at not_active
    rcases origin v' hv' with rfl | ⟨hv, -⟩
    · rw [handle] at not_active
      exact ended (h.ended w mem not_active)
    · exact h.ended v' hv not_active
  · rw [torn, active]
    exact h.torn
  · intro v later
    rw [numbers] at later
    have other : v.handle ≠ w.handle := fun named => by
      have := h.below w mem
      rw [named] at later
      omega
    rw [elsewhere v other]
    exact h.fresh v later

/-- If all numbers are below the next one, no watch has it yet. -/
theorem handle_ne_next
    (below : ∀ w ∈ world.session.watches, w.handle.number < world.host.nextHandle)
    {v : Watch} (hv : v ∈ world.session.watches) : v.handle ≠ ⟨world.host.nextHandle⟩ := by
  intro named
  have number := below v hv
  rw [named] at number
  exact Nat.lt_irrefl _ number

theorem Accounted.handle_ne_next (h : world.Accounted loose) {v : Watch}
    (hv : v ∈ world.session.watches) : v.handle ≠ ⟨world.host.nextHandle⟩ :=
  World.handle_ne_next h.below hv

theorem Accounted.next_unknown (h : world.Accounted loose) :
    world.session.watch? ⟨world.host.nextHandle⟩ = none := by
  apply List.find?_eq_none.mpr
  intro v hv named
  exact h.handle_ne_next hv (by simpa using named)

theorem Accounted.next_not_active (h : world.Accounted loose) :
    (⟨world.host.nextHandle⟩ : Handle) ∉ world.session.active := by
  intro active
  obtain ⟨v, hv, named⟩ := h.known _ active
  exact h.handle_ne_next hv named

/-- One watch joins the others, under the next number. -/
theorem Accounted.add (h : world.Accounted loose) {w : Watch}
    (watches : world'.session.watches = world.session.watches ++ [w])
    (active : world'.session.active = world.session.active ++ [w.handle])
    (torn : world'.session.tornDown = false)
    (numbers : world'.host.nextHandle = world.host.nextHandle + 1)
    (number : w.handle.number = world.host.nextHandle)
    (elsewhere : ∀ v : Watch, v.handle ≠ w.handle → world'.account v = world.account v)
    (lived : (world'.account w).Lived loose) : world'.Accounted loose := by
  have next : w.handle = ⟨world.host.nextHandle⟩ := congrArg Handle.mk number
  have new : ∀ v ∈ world.session.watches, v.handle ≠ w.handle := by
    intro v hv
    rw [next]
    exact h.handle_ne_next hv
  refine ⟨?_, ?_, ?_, ?_, ?_, ?_, ?_⟩
  · rw [watches, List.map_append, List.nodup_append]
    refine ⟨h.distinct, List.nodup_singleton _, fun k hk k' hk' => ?_⟩
    obtain ⟨v, hv, rfl⟩ := List.mem_map.mp hk
    rw [List.map_singleton, List.mem_singleton] at hk'
    rw [hk']
    exact new v hv
  · intro v hv
    rw [watches] at hv
    rw [numbers]
    rcases List.mem_append.mp hv with old | last
    · exact Nat.lt_succ_of_lt (h.below v old)
    · rw [List.mem_singleton.mp last]
      omega
  · intro k hk
    rw [active] at hk
    rw [watches]
    rcases List.mem_append.mp hk with old | last
    · obtain ⟨v, hv, named⟩ := h.known k old
      exact ⟨v, List.mem_append_left _ hv, named⟩
    · exact ⟨w, List.mem_append_right _ List.mem_cons_self, (List.mem_singleton.mp last).symm⟩
  · intro v hv is_active
    rw [watches] at hv
    rw [active] at is_active
    rcases List.mem_append.mp hv with old | last
    · have other := new v old
      rw [elsewhere v other]
      refine h.lived v old ((List.mem_append.mp is_active).resolve_right fun named => ?_)
      exact other (List.mem_singleton.mp named)
    · rw [List.mem_singleton.mp last]
      exact lived
  · intro v hv not_active
    rw [watches] at hv
    rw [active] at not_active
    rcases List.mem_append.mp hv with old | last
    · exact h.ended v old fun is_active => not_active (List.mem_append_left _ is_active)
    · refine absurd (List.mem_append_right _ ?_) not_active
      rw [List.mem_singleton.mp last]
      exact List.mem_cons_self
  · intro is_torn
    rw [torn] at is_torn
    simp at is_torn
  · intro v later
    rw [numbers] at later
    rw [elsewhere v fun named => by rw [named] at later; omega]
    exact h.fresh v (by omega)

end World

end DirWatch
