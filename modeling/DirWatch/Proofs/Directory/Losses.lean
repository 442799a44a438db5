import DirWatch.Proofs.Directory.Matching
import DirWatch.Proofs.Directory.Telling

/-!
# Losses are told

What a directory hands out, it hands out in order and once. If it passes a change over, the change
was too large for the buffer of the read that came to it, or all that waited was given up and a
completion without bytes says so, between what came before the change and what came behind it.
`History.losses_told` says this of every run of a directory: of deliveries and errors, reads with
buffers of any size, completions that are taken early, late or never, and the end.
-/

namespace DirWatch

namespace Chronicle

/-- A read came to this change, and its buffer was too small for it. -/
def Outgrown (log : Chronicle) (i : Nat) : Prop :=
  ∃ buffer bytes tooLarge handed c, Entry.ended (.done buffer bytes) tooLarge handed ∈ log ∧
    i ∈ tooLarge ∧ log.made[i]? = some c ∧ buffer.size < c.recordSize

/-- What is handed out is in order, and what is not is accounted for. -/
structure Honest (room : Nat) (log : Chronicle) : Prop where
  /-- What the completions that were taken decode to are changes that were made. -/
  genuine : log.Numbered log.handedOut (log.completions.flatMap Completion.changes)
  in_order : log.handedOut.Pairwise (· < ·)
  /-- A change that is passed over was too large, or its loss is told before the next one comes. -/
  explained : ∀ i j, i < j → i ∉ log.handedOut → j ∈ log.handedOut → log.Outgrown i ∨ log.Told i
  /-- Changes that come before a loss is told share its fate. -/
  discarded : ∀ before cause numbers between e after c,
    log = before ++ .lost cause numbers :: (between ++ e :: after) →
      (∀ e' ∈ between, e'.isEnd = false) → e.change? = some c →
        (made (before ++ .lost cause numbers :: between)).length ∉ log.handedOut
  /-- The first read that ends after a loss tells it and does nothing else. -/
  told_first : ∀ before cause numbers between completion tooLarge handed after,
    log = before ++ .lost cause numbers :: (between ++ .ended completion tooLarge handed :: after) →
      (∀ e' ∈ between, e'.isEnd = false) →
        ∃ buffer, completion = .done buffer 0 ∧ tooLarge = [] ∧ handed = []
  /-- A change that comes after a read has ended is lost only by an overflow after that. -/
  own_cause : ∀ before completion tooLarge handed after cause numbers i,
    log = before ++ .ended completion tooLarge handed :: after → (made before).length ≤ i →
      Entry.lost cause numbers ∈ log → i ∈ numbers →
        ∃ between rest cause' numbers', after = between ++ .lost cause numbers :: rest ∧
          cause'.isOverflow = true ∧
          Entry.lost cause' numbers' ∈ between ++ [Entry.lost cause numbers]
  /-- Changes are lost for want of room only if there is none. -/
  full : ∀ before c numbers after,
    log = before ++ .lost (.full c) numbers :: after → room < numbers.length

variable {room : Nat} {log : Chronicle} {i j : Nat}

theorem Sound.explained (h : Sound room log) (order : i < j) (passed : i ∉ log.handedOut)
    (out : j ∈ log.handedOut) : log.Outgrown i ∨ log.Told i := by
  have made : i < log.made.length := by
    rw [← status_next]
    exact Nat.lt_trans order (h.ordered.2 j (List.mem_append_left _ out))
  -- a change that is still there comes behind all that was handed out, so that one that was passed
  -- over has been given up
  rcases h.fate made with there | ⟨e, mem, gone⟩
  · rcases List.mem_append.mp there with handed | waits
    · exact absurd handed passed
    · exact absurd (h.handedOut_lt out waits) (Nat.lt_asymm order)
  · cases e with
    | kept c => simp [Entry.givenUp] at gone
    | taken completion handed => simp [Entry.givenUp] at gone
    | ended completion tooLarge handed =>
      obtain ⟨buffer, bytes, c, rfl, found, larger⟩ := h.tooLarge mem gone
      exact .inl ⟨buffer, bytes, tooLarge, handed, c, mem, gone, found, larger⟩
    | shut numbers =>
      exact absurd ((h.shut mem gone).2 j (List.mem_append_left _ out)) (Nat.lt_asymm order)
    | lost cause numbers =>
      cases (h.loss mem gone).2 with
      | untold _ below =>
        exact absurd (below j (List.mem_append_left _ out)) (Nat.lt_asymm order)
      | ended _ _ below => exact absurd (below j out) (Nat.lt_asymm order)
      | told told => exact .inr told

theorem Sound.discarded {before between after : Chronicle} {cause : Cause} {numbers : List Nat}
    {e : Entry} {c : Change}
    (h : Sound room (before ++ .lost cause numbers :: (between ++ e :: after)))
    (no_end : ∀ e' ∈ between, e'.isEnd = false) (comes : e.change? = some c) :
    (made (before ++ .lost cause numbers :: between)).length ∉
      handedOut (before ++ .lost cause numbers :: (between ++ e :: after)) := by
  have untold := untold_of_lost before cause numbers no_end
  rw [← List.cons_append, ← List.append_assoc] at h ⊢
  obtain ⟨-, follows⟩ := h.split
  cases follows with
  | kept _ told =>
    -- nothing waits while a loss is untold
    rw [untold] at told
    exact absurd told Bool.noConfusion
  | @lost cause' =>
    refine (h.loss (List.mem_append_right _ List.mem_cons_self) ?_).2.not_handedOut
    refine List.mem_append_right _ ?_
    rw [Status.arriving, show cause'.change? = some c from comes, status_next]
    exact List.mem_singleton_self _
  | ended => simp [Entry.change?] at comes
  | taken => simp [Entry.change?] at comes
  | shut => simp [Entry.change?] at comes

theorem Sound.told_first {before between after : Chronicle} {cause : Cause} {numbers : List Nat}
    {completion : Completion} {tooLarge handed : List Nat}
    (h : Sound room (before ++ .lost cause numbers ::
      (between ++ .ended completion tooLarge handed :: after)))
    (no_end : ∀ e' ∈ between, e'.isEnd = false) :
    ∃ buffer, completion = .done buffer 0 ∧ tooLarge = [] ∧ handed = [] := by
  have untold := untold_of_lost before cause numbers no_end
  rw [← List.cons_append, ← List.append_assoc] at h
  cases h.split.2 with
  | ended _ _ _ _ _ tells => exact tells untold

/-- Of two entries of a chronicle that are not the same one comes before the other. -/
theorem before_or_after {α : Type} {before after front rest : List α} {x y : α}
    (same : before ++ x :: after = front ++ y :: rest) (apart : x ≠ y) :
    (∃ between, before = front ++ y :: between) ∨
      ∃ between, front = before ++ x :: between ∧ after = between ++ y :: rest := by
  rcases List.append_eq_append_iff.mp same with ⟨part, rfl, found⟩ | ⟨part, rfl, found⟩
  · cases part with
    | nil => exact absurd (List.cons.inj found).1 apart
    | cons z between =>
      obtain ⟨rfl, rfl⟩ := List.cons.inj found
      exact .inr ⟨between, rfl, rfl⟩
  · cases part with
    | nil => exact absurd (List.cons.inj found).1.symm apart
    | cons z between =>
      obtain ⟨rfl, -⟩ := List.cons.inj found
      exact .inl ⟨between, rfl⟩

theorem Sound.own_cause {before after : Chronicle} {completion : Completion}
    {tooLarge handed : List Nat} {cause : Cause} {numbers : List Nat}
    (h : Sound room (before ++ .ended completion tooLarge handed :: after))
    (later : (made before).length ≤ i)
    (mem : Entry.lost cause numbers ∈ before ++ .ended completion tooLarge handed :: after)
    (gone : i ∈ numbers) :
    ∃ between rest cause' numbers', after = between ++ .lost cause numbers :: rest ∧
      cause'.isOverflow = true ∧
      Entry.lost cause' numbers' ∈ between ++ [Entry.lost cause numbers] := by
  obtain ⟨front, rest, split⟩ := List.append_of_mem mem
  rw [split] at h
  obtain ⟨sound, follows⟩ := h.split
  rcases before_or_after split (by simp) with ⟨between, earlier⟩ | ⟨between, rfl, rfl⟩
  · -- what is lost before the read ends was made before that
    have made_before : i < (made (front ++ [.lost cause numbers])).length := by
      have lost := (sound.snoc follows).loss (List.mem_append_right _ List.mem_cons_self) gone
      rw [← status_next]
      exact lost.1
    rw [earlier, show front ++ .lost cause numbers :: between =
      (front ++ [.lost cause numbers]) ++ between by simp, made_append, List.length_append] at later
    omega
  · refine ⟨between, rest, ?_⟩
    cases overflow : cause.isOverflow with
    | true => exact ⟨cause, numbers, rfl, overflow, List.mem_append_right _ List.mem_cons_self⟩
    | false =>
      -- a loss that is not an overflow follows one, and no read has ended since
      cases follows with
      | lost _ causes =>
        obtain ⟨front, cause', numbers', tail, split', overflow', no_end⟩ :=
          sound.overflow (causes overflow)
        refine ⟨cause', numbers', rfl, overflow', List.mem_append_left _ ?_⟩
        rcases before_or_after split' (by simp) with ⟨inner, rfl⟩ | ⟨inner, -, rfl⟩
        · have ended : Entry.ended completion tooLarge handed ∈ tail := by
            rw [List.append_assoc, List.cons_append] at split'
            rw [← (List.cons.inj (List.append_cancel_left split')).2]
            exact List.mem_append_right _ List.mem_cons_self
          exact absurd (no_end _ ended) Bool.noConfusion
        · exact List.mem_append_right _ List.mem_cons_self

theorem Sound.full {before after : Chronicle} {c : Change} {numbers : List Nat}
    (h : Sound room (before ++ .lost (.full c) numbers :: after)) : room < numbers.length := by
  cases h.split.2 with
  | lost _ _ full =>
    have waiting := full c rfl
    rw [List.length_append]
    exact Nat.lt_of_le_of_lt waiting (Nat.lt_succ_self _)

theorem Sound.honest (h : Sound room log) : log.Honest room where
  genuine := h.numbered.1
  in_order := h.handedOut_ordered
  explained _ _ := h.explained
  discarded _ _ _ _ _ _ _ split no_end comes := by
    subst split
    exact h.discarded no_end comes
  told_first _ _ _ _ _ _ _ _ split no_end := by
    subst split
    exact h.told_first no_end
  own_cause _ _ _ _ _ _ _ _ split later mem gone := by
    subst split
    exact h.own_cause later mem gone
  full _ _ _ _ split := by
    subst split
    exact h.full

end Chronicle

namespace History

/-- The changes that a directory makes while it is open are told by its chronicle, and so are the
completions that are taken; and the chronicle is honest. -/
theorem losses_told (root : RawPath) (capacity : Nat) (acts : List Directory.Act)
    (small : ∀ act ∈ acts, act.Small) :
    ((start root capacity).run acts).log.made = (start root capacity).directory.arrivalsOf acts ∧
      ((start root capacity).run acts).log.completions =
        (start root capacity).directory.completionsOf acts ∧
      ((start root capacity).run acts).log.Honest (max 1 capacity) :=
  ⟨made_run (start root capacity) acts, completions_run (start root capacity) acts,
    (matches_run root capacity small).sound.honest⟩

/-- A file comes to be in the root of the file system. -/
def appears (name : List UInt8) : Directory.Act :=
  .deliver (fun _ => true) (.ok ⟨.create .file, [RawPath.slash :: name], false⟩)

/-- Reads of the root with room for one record of a short name, and a journal with room for two
changes. -/
def reads : Directory.Act :=
  .read { tree := ⟨[], []⟩ } (Array.replicate 16 0) false .fileName 0

/-- The first change is handed out. Of the next four the third finds no room, and the fourth comes
before the loss is told. The sixth has too long a name, and the seventh is handed out. -/
def sevenFiles : List Directory.Act :=
  [reads, appears [97], .take,
    appears [98], appears [99], appears [100], appears [101], reads, .take,
    appears [102, 102, 102], appears [103], reads, .take, .close]

theorem losses_told_sevenFiles :
    (∀ act ∈ sevenFiles, act.Small) ∧
      ((start [47] 2).run sevenFiles).log.handedOut = [0, 6] ∧
      ((start [47] 2).run sevenFiles).log.made =
        (start [47] 2).directory.arrivalsOf sevenFiles ∧
      ((start [47] 2).run sevenFiles).log.completions =
        (start [47] 2).directory.completionsOf sevenFiles ∧
      ((start [47] 2).run sevenFiles).log.Honest 2 := by
  have small : ∀ act ∈ sevenFiles, act.Small := by decide
  have handed : ((start [47] 2).run sevenFiles).log.handedOut = [0, 6] := by decide +kernel
  exact ⟨small, handed, losses_told [47] 2 sevenFiles small⟩

end History

end DirWatch
