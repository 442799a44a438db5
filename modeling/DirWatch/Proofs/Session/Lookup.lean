import DirWatch.Session.Basic
import Mathlib.Data.List.Nodup

/-!
# Looking watches up

What `Session.watch?` finds: the watch with the handle, if handles are given once, and the same
after a watch has joined the others or one of them has changed.
-/

namespace DirWatch

namespace Session

variable {s : Session} {h : Handle} {w : Watch}

theorem mem_of_watch? (found : s.watch? h = some w) : w ∈ s.watches ∧ w.handle = h := by
  have named := List.find?_some found
  exact ⟨List.mem_of_find?_eq_some found, by simpa using named⟩

theorem watch?_of_mem (distinct : (s.watches.map Watch.handle).Nodup) (mem : w ∈ s.watches) :
    s.watch? w.handle = some w := by
  cases found : s.watch? w.handle with
  | none =>
    have none_named := List.find?_eq_none.mp found w mem
    simp at none_named
  | some v =>
    obtain ⟨mem', named⟩ := mem_of_watch? found
    rw [List.inj_on_of_nodup_map distinct mem' mem named]

/-- Looking a handle up does not see a watch with another one that comes last. -/
theorem watch?_append_of_ne {w : Watch} {k : Handle} (other : w.handle ≠ k) (active : List Handle) :
    ({ s with watches := s.watches ++ [w], active } : Session).watch? k = s.watch? k := by
  show (s.watches ++ [w]).find? (fun v => v.handle == k) = s.watch? k
  rw [List.find?_append, List.find?_cons_of_neg (by simpa using other), List.find?_nil,
    Option.or_none]
  rfl

theorem watch?_append_self {w : Watch} (new : s.watch? w.handle = none) (active : List Handle) :
    ({ s with watches := s.watches ++ [w], active } : Session).watch? w.handle = some w := by
  have unknown : s.watches.find? (fun v => v.handle == w.handle) = none := new
  show (s.watches ++ [w]).find? (fun v => v.handle == w.handle) = some w
  rw [List.find?_append, unknown, List.find?_cons_of_pos (by simp)]
  rfl

/-- Changing the watch with a handle that no watch has changes nothing. -/
theorem update_of_watch?_none (none_found : s.watch? h = none) (f : Watch → Watch) :
    s.update h f = s := by
  have others : ∀ v ∈ s.watches, (if v.handle = h then f v else v) = v := by
    intro v hv
    have named := List.find?_eq_none.mp none_found v hv
    rw [if_neg (by simpa using named)]
  rw [update, List.map_congr_left others, List.map_id']

/-- Looking a handle up after one watch has changed, if it has kept its handle. -/
theorem watch?_update (s : Session) (h k : Handle) {f : Watch → Watch}
    (keeps : ∀ v : Watch, v.handle = h → (f v).handle = h) :
    (s.update h f).watch? k = if k = h then (s.watch? h).map f else s.watch? k := by
  show (s.watches.map fun v => if v.handle = h then f v else v).find? (fun v => v.handle == k) = _
  have same_handle : ∀ v : Watch, (if v.handle = h then f v else v).handle = v.handle := by
    intro v
    split
    · next named => rw [keeps v named, named]
    · rfl
  have looks : ((fun v : Watch => v.handle == k) ∘ fun v => if v.handle = h then f v else v) =
      fun v => v.handle == k := by
    funext v
    rw [Function.comp_apply, same_handle]
  rw [List.find?_map, looks]
  by_cases own : k = h
  · subst own
    rw [if_pos rfl]
    show (s.watch? k).map _ = (s.watch? k).map f
    cases found : s.watch? k with
    | none => rfl
    | some v => simp only [Option.map_some, if_pos (mem_of_watch? found).2]
  · rw [if_neg own]
    show (s.watch? k).map _ = s.watch? k
    cases found : s.watch? k with
    | none => rfl
    | some v =>
      have other : v.handle ≠ h := by
        rw [(mem_of_watch? found).2]
        exact own
      simp only [Option.map_some, if_neg other]

end Session

end DirWatch
