import DirWatch.Proofs.Directory.Chronicle
import Mathlib.Data.List.Induction

/-!
# How losses are told

What is given up in an overflow is a loss (`Chronicle.Loss`): first no read has ended since, then
the completion that tells it can be taken, then it has been taken. At each of these points all
changes that have been handed out came before the loss, and all that are still there came behind it;
so the completion stands between them (`Chronicle.Sound.loss`).
-/

namespace DirWatch

namespace Chronicle

variable {room : Nat} {log : Chronicle} {e : Entry} {i j : Nat}

/-- The loss of a change has been told: a completion without bytes was taken after all changes
before it that are handed out, and before all behind it. -/
def Told (log : Chronicle) (i : Nat) : Prop :=
  ∃ before cause numbers between buffer after,
    log = before ++ .lost cause numbers :: (between ++ .taken (.done buffer 0) [] :: after) ∧
      i ∈ numbers ∧ (∀ m ∈ handedOut (before ++ .lost cause numbers :: between), m < i) ∧
      ∀ m ∈ handedOut after, i < m

/-- How far a loss has been told. -/
inductive Loss (log : Chronicle) (i : Nat) : Prop where
  /-- No read has ended since. -/
  | untold (untold : log.status.untold = true) (below : ∀ m ∈ log.sent, m < i)
  /-- The completion that tells it can be taken. -/
  | ended (buffer : Buffer) (stored : log.status.stored = some (.done buffer 0, []))
      (below : ∀ m ∈ log.handedOut, m < i) (above : ∀ m ∈ log.status.waiting, i < m)
  | told (told : log.Told i) (above : ∀ m ∈ log.ahead, i < m)

/-- Only a change that is made comes to wait. -/
theorem Follows.waiting (follows : Follows room log e) (waits : j ∈ (log ++ [e]).status.waiting) :
    j ∈ log.status.waiting ∨ j = log.status.next := by
  rw [status_snoc] at waits
  cases follows with
  | kept => exact (List.mem_append.mp waits).imp_right List.mem_singleton.mp
  | lost => simp [Status.after] at waits
  | ended => exact .inl (List.mem_of_mem_drop waits)
  | taken => exact .inl waits
  | shut => simp [Status.after] at waits

/-- What can be taken was stored before, or has waited. -/
theorem Follows.stored (follows : Follows room log e)
    (stored : j ∈ (log ++ [e]).status.storedNumbers) : j ∈ log.ahead := by
  rw [status_snoc] at stored
  cases follows with
  | kept => exact List.mem_append_left _ stored
  | lost => exact List.mem_append_left _ stored
  | ended _ _ front =>
    refine List.mem_append_right _ ?_
    rw [front]
    exact List.mem_append_right _ (List.mem_append_left _ stored)
  | taken => simp [Status.after, Status.storedNumbers] at stored
  | shut => exact List.mem_append_left _ stored

/-- What is handed out was still there. -/
theorem Follows.handedOut (follows : Follows room log e) (out : j ∈ e.handedOut) :
    j ∈ log.ahead := by
  cases follows with
  | taken stored =>
    refine List.mem_append_left _ ?_
    rw [storedNumbers_of_some stored]
    exact out
  | kept => simp [Entry.handedOut] at out
  | lost => simp [Entry.handedOut] at out
  | ended => simp [Entry.handedOut] at out
  | shut => simp [Entry.handedOut] at out

theorem Told.snoc (h : log.Told i) (above : ∀ m ∈ e.handedOut, i < m) : (log ++ [e]).Told i := by
  obtain ⟨before, cause, numbers, between, buffer, after, rfl, mem, below, above_before⟩ := h
  refine ⟨before, cause, numbers, between, buffer, after ++ [e], ?_, mem, below, ?_⟩
  · simp only [List.append_assoc, List.cons_append]
  · intro m hm
    rw [handedOut_snoc] at hm
    rcases List.mem_append.mp hm with hm | hm
    · exact above_before m hm
    · exact above m hm

/-- A loss is told step by step. -/
theorem Loss.snoc (h : log.Loss i) (follows : Follows room log e) (made : i < log.status.next)
    (lost : ∃ cause numbers, Entry.lost cause numbers ∈ log ∧ i ∈ numbers)
    (none_behind : log.status.untold = true → log.status.waiting = []) : (log ++ [e]).Loss i := by
  have same := follows.sent_eq
  have comes_behind (above : ∀ m ∈ log.status.waiting, i < m) :
      ∀ m ∈ (log ++ [e]).status.waiting, i < m := by
    intro m waits
    rcases follows.waiting waits with old | rfl
    · exact above m old
    · exact made
  cases h with
  | untold untold below =>
    cases follows with
    | kept _ told => simp [untold] at told
    | lost => exact .untold (by rw [status_snoc]; rfl) (by rwa [same rfl])
    | taken => exact .untold (by rw [status_snoc]; exact untold) (by rwa [same rfl])
    | shut => exact .untold (by rw [status_snoc]; exact untold) (by rwa [same rfl])
    | ended _ _ _ _ _ tells =>
      -- the read that ends now tells the loss, and nothing waits behind it
      obtain ⟨buffer, rfl, rfl, rfl⟩ := tells untold
      refine .ended buffer (by rw [status_snoc]; rfl) ?_ (comes_behind ?_)
      · rw [handedOut_snoc_of_nil rfl]
        exact fun m out => below m (List.mem_append_left _ out)
      · rw [none_behind untold]
        exact fun m waits => absurd waits List.not_mem_nil
  | ended buffer stored below above =>
    have behind := comes_behind above
    cases follows with
    | ended _ none_stored => simp [stored] at none_stored
    | kept =>
      exact .ended buffer (by rw [status_snoc]; exact stored) (by rwa [handedOut_snoc_of_nil rfl])
        behind
    | lost =>
      exact .ended buffer (by rw [status_snoc]; exact stored) (by rwa [handedOut_snoc_of_nil rfl])
        behind
    | shut =>
      exact .ended buffer (by rw [status_snoc]; exact stored) (by rwa [handedOut_snoc_of_nil rfl])
        behind
    | taken now =>
      -- the completion that is taken is the one that tells the loss
      rw [stored] at now
      obtain ⟨rfl, rfl⟩ := Prod.mk.inj (Option.some.inj now)
      obtain ⟨cause, numbers, mem, gone⟩ := lost
      obtain ⟨before, between, rfl⟩ := List.append_of_mem mem
      refine .told ⟨before, cause, numbers, between, buffer, [], ?_, gone, below, ?_⟩ ?_
      · simp only [List.append_assoc, List.cons_append]
      · intro m hm
        simp [Chronicle.handedOut] at hm
      · rw [ahead, status_snoc]
        exact above
  | told told above =>
    -- what is handed out later comes from what is still there
    refine .told (told.snoc fun m out => above m (follows.handedOut out)) fun m there => ?_
    rcases List.mem_append.mp there with stored | waits
    · exact above m (follows.stored stored)
    · exact comes_behind (fun m waits => above m (List.mem_append_right _ waits)) m waits

/-- What waits and what just comes was made after all that has been handed out or is about to be. -/
theorem Sound.arriving_last (h : Sound room log) {cause : Cause}
    (gone : i ∈ log.status.waiting ++ log.status.arriving cause) :
    i < log.status.next + (log.status.arriving cause).length ∧ ∀ m ∈ log.sent, m < i := by
  have below := h.ordered.2
  rw [current_eq] at below
  rcases List.mem_append.mp gone with waited | comes
  · exact ⟨Nat.lt_add_right _ (below i (List.mem_append_right _ waited)),
      fun m sent => h.sent_lt sent waited⟩
  · have single : log.status.arriving cause = [log.status.next] := by
      rw [Status.arriving] at comes ⊢
      split at comes
      · simp at comes
      · rfl
    rw [single] at comes ⊢
    rw [List.mem_singleton.mp comes]
    exact ⟨Nat.lt_succ_self _, fun m sent => below m (List.mem_append_left _ sent)⟩

/-- What is given up in an overflow is a loss that is told. -/
theorem Sound.loss (h : Sound room log) {cause : Cause} {numbers : List Nat}
    (mem : Entry.lost cause numbers ∈ log) (gone : i ∈ numbers) :
    i < log.status.next ∧ log.Loss i := by
  induction h with
  | nil => simp at mem
  | @snoc log e before follows ih =>
    rcases List.mem_append.mp mem with old | new
    · obtain ⟨made, loss⟩ := ih old
      refine ⟨?_, loss.snoc follows made ⟨cause, numbers, old, gone⟩ before.untold_waiting⟩
      rcases follows.current with ⟨-, next⟩ | ⟨-, next⟩
      · omega
      · omega
    · -- what is lost just now was made after all that was sent
      obtain rfl := List.mem_singleton.mp new
      have same := follows.sent_eq rfl
      cases follows with
      | lost =>
        have last := before.arriving_last gone
        refine ⟨?_, .untold (by rw [status_snoc]; rfl) (by rw [same]; exact last.2)⟩
        rw [status_snoc]
        exact last.1

theorem Loss.not_handedOut (h : log.Loss i) : i ∉ log.handedOut := by
  intro out
  cases h with
  | untold _ below => exact absurd (below i (List.mem_append_left _ out)) (Nat.lt_irrefl i)
  | ended _ _ below => exact absurd (below i out) (Nat.lt_irrefl i)
  | told told =>
    obtain ⟨before, cause, numbers, between, buffer, after, rfl, -, below, above⟩ := told
    have parts : handedOut (before ++ .lost cause numbers ::
        (between ++ .taken (.done buffer 0) [] :: after)) =
          handedOut (before ++ .lost cause numbers :: between) ++ handedOut after := by
      simp [handedOut, Entry.handedOut]
    rw [parts] at out
    rcases List.mem_append.mp out with early | late
    · exact absurd (below i early) (Nat.lt_irrefl i)
    · exact absurd (above i late) (Nat.lt_irrefl i)

/-- A loss is untold until a read ends. -/
theorem untold_of_lost (before : Chronicle) {between : Chronicle} (cause : Cause)
    (numbers : List Nat) (no_end : ∀ e ∈ between, e.isEnd = false) :
    (status (before ++ .lost cause numbers :: between)).untold = true := by
  induction between using List.reverseRecOn with
  | nil =>
    rw [status_snoc]
    rfl
  | append_singleton between e ih =>
    have still := ih fun e' he' => no_end e' (List.mem_append_left _ he')
    rw [show before ++ .lost cause numbers :: (between ++ [e]) =
      (before ++ .lost cause numbers :: between) ++ [e] by simp, status_snoc]
    cases e with
    | ended => simpa [Entry.isEnd] using no_end _ (List.mem_append_right _ List.mem_cons_self)
    | lost => rfl
    | kept => exact still
    | taken => exact still
    | shut => exact still

/-- If a loss is untold, an overflow lies behind the last end of a read. -/
theorem Sound.overflow (h : Sound room log) (untold : log.status.untold = true) :
    ∃ before cause numbers after, log = before ++ .lost cause numbers :: after ∧
      cause.isOverflow = true ∧ ∀ e ∈ after, e.isEnd = false := by
  induction h with
  | nil => simp [status] at untold
  | @snoc log e _ follows ih =>
    have earlier (still : log.status.untold = true) (no_end : e.isEnd = false) :
        ∃ before cause numbers after, log ++ [e] = before ++ .lost cause numbers :: after ∧
          cause.isOverflow = true ∧ ∀ e ∈ after, e.isEnd = false := by
      obtain ⟨before, cause, numbers, after, rfl, overflow, none_after⟩ := ih still
      refine ⟨before, cause, numbers, after ++ [e], by simp, overflow, fun e' he' => ?_⟩
      rcases List.mem_append.mp he' with old | new
      · exact none_after e' old
      · rwa [List.mem_singleton.mp new]
    rw [status_snoc] at untold
    cases follows with
    | kept => exact earlier untold rfl
    | @lost cause _ causes =>
      cases overflow : cause.isOverflow with
      | true => exact ⟨log, cause, _, [], rfl, overflow, fun e he => by simp at he⟩
      | false => exact earlier (causes overflow) rfl
    | ended => simp [Status.after] at untold
    | taken => exact earlier untold rfl
    | shut => exact earlier untold rfl

end Chronicle

end DirWatch
