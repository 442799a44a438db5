import DirWatch.Proofs.Directory.Packing
import Mathlib.Data.List.Induction

/-!
# Chronicles

A chronicle tells what has become of the changes that a directory has made, by their numbers in the
order in which they were made. `Chronicle.Sound` says that each entry may follow those before it.
All else follows from this alone: changes are handed out in order (`Chronicle.Sound.ordered`), and
each one is handed out, still there, or given up by an entry that says so (`Chronicle.Sound.fate`).
-/

namespace DirWatch

/-- Why changes are given up that would have fitted. -/
inductive Cause where
  /-- There was no room for this change. -/
  | full (c : Change)
  /-- The backend has lost notices. -/
  | rescan
  /-- This change came before an earlier loss was told. -/
  | untold (c : Change)

namespace Cause

def change? : Cause → Option Change
  | full c => some c
  | rescan => none
  | untold c => some c

/-- Tells whether the cause is a loss of its own, and does not follow from an earlier one. -/
def isOverflow : Cause → Bool
  | untold _ => false
  | _ => true

end Cause

/-- What happens to the changes of a directory. -/
inductive Entry where
  /-- A change was made and waits. -/
  | kept (c : Change)
  /-- All that waited was given up, with the change that came just then, if there was one. -/
  | lost (cause : Cause) (numbers : List Nat)
  /-- A read ended: it gave up changes that were too large for its buffer and took the next ones. -/
  | ended (completion : Completion) (tooLarge handed : List Nat)
  /-- The completion of a read was taken, and with it these changes were handed out. -/
  | taken (completion : Completion) (handed : List Nat)
  /-- The directory was closed, and all that waited was given up. -/
  | shut (numbers : List Nat)

namespace Entry

def change? : Entry → Option Change
  | kept c => some c
  | lost cause _ => cause.change?
  | _ => none

def completion? : Entry → Option Completion
  | taken completion _ => some completion
  | _ => none

def handedOut : Entry → List Nat
  | taken _ numbers => numbers
  | _ => []

/-- The changes that were given up. -/
def givenUp : Entry → List Nat
  | lost _ numbers => numbers
  | ended _ tooLarge _ => tooLarge
  | shut numbers => numbers
  | _ => []

def isEnd : Entry → Bool
  | ended _ _ _ => true
  | _ => false

end Entry

/-- The entries so far, in order. -/
abbrev Chronicle := List Entry

namespace Chronicle

/-- The changes that were made; their places are their numbers. -/
def made (log : Chronicle) : List Change := log.filterMap Entry.change?

def completions (log : Chronicle) : List Completion := log.filterMap Entry.completion?

/-- The numbers of the changes that were handed out. -/
def handedOut (log : Chronicle) : List Nat := log.flatMap Entry.handedOut

/-- These are the numbers of these changes. -/
def Numbered (log : Chronicle) (numbers : List Nat) (cs : List Change) : Prop :=
  numbers.map (log.made[·]?) = cs.map some

/-- Where the changes of a directory are, by their numbers: the next one to be made, those that wait
and those that can be taken. -/
structure Status where
  next : Nat
  waiting : List Nat
  /-- The completion that can be taken, with its changes. -/
  stored : Option (Completion × List Nat)
  /-- Changes were lost, and no read has ended since. -/
  untold : Bool
  shut : Bool

namespace Status

/-- The number of the change that comes with a loss. -/
def arriving (s : Status) (cause : Cause) : List Nat :=
  match cause.change? with
  | none => []
  | some _ => [s.next]

def storedNumbers (s : Status) : List Nat :=
  match s.stored with
  | none => []
  | some (_, numbers) => numbers

/-- What an entry does. -/
def after (s : Status) : Entry → Status
  | .kept _ => { s with next := s.next + 1, waiting := s.waiting ++ [s.next] }
  | .lost cause _ =>
    { s with next := s.next + (s.arriving cause).length, waiting := [], untold := true }
  | .ended completion tooLarge handed =>
    { s with
      waiting := s.waiting.drop (tooLarge.length + handed.length)
      stored := some (completion, handed)
      untold := false }
  | .taken _ _ => { s with stored := none }
  | .shut _ => { s with waiting := [], shut := true }

end Status

/-- Where the changes are after these entries. -/
def status (log : Chronicle) : Status := log.foldl Status.after ⟨0, [], none, false, false⟩

/-- All that waits is lost, and what comes with the loss. -/
def lose (log : Chronicle) (cause : Cause) : Entry :=
  .lost cause (log.status.waiting ++ log.status.arriving cause)

/-- The entries that may come next, in a directory whose journal has so much room. -/
inductive Follows (room : Nat) (log : Chronicle) : Entry → Prop where
  /-- A change waits only if no loss is untold. -/
  | kept {c : Change} (still_open : log.status.shut = false) (told : log.status.untold = false) :
      Follows room log (.kept c)
  /-- A change is lost when a loss is untold, or when as many wait as there is room for. -/
  | lost {cause : Cause} (still_open : log.status.shut = false)
      (causes : cause.isOverflow = false → log.status.untold = true)
      (full : ∀ c, cause = .full c → room ≤ log.status.waiting.length) :
      Follows room log (.lost cause (log.status.waiting ++ log.status.arriving cause))
  /-- A read takes from the front what its completion decodes to, and gives up only what is too
  large for its buffer. If a loss is untold, it does nothing but tell it. -/
  | ended {completion : Completion} {tooLarge handed rest : List Nat}
      (still_open : log.status.shut = false) (none_stored : log.status.stored = none)
      (front : log.status.waiting = tooLarge ++ (handed ++ rest))
      (large : ∀ i ∈ tooLarge, ∃ buffer bytes c, completion = .done buffer bytes ∧
        log.made[i]? = some c ∧ buffer.size < c.recordSize)
      (content : log.Numbered handed completion.changes)
      (tells : log.status.untold = true →
        ∃ buffer, completion = .done buffer 0 ∧ tooLarge = [] ∧ handed = []) :
      Follows room log (.ended completion tooLarge handed)
  | taken {completion : Completion} {handed : List Nat}
      (stored : log.status.stored = some (completion, handed)) :
      Follows room log (.taken completion handed)
  | shut : Follows room log (.shut log.status.waiting)

/-- Each entry follows those before it. -/
inductive Sound (room : Nat) : Chronicle → Prop where
  | nil : Sound room []
  | snoc {log : Chronicle} {e : Entry} (before : Sound room log) (follows : Follows room log e) :
      Sound room (log ++ [e])

variable {room : Nat} {log : Chronicle} {e : Entry} {i j : Nat}

/-! ## One entry more -/

theorem status_snoc (log : Chronicle) (e : Entry) :
    (log ++ [e]).status = log.status.after e := by
  rw [status, List.foldl_append]
  rfl

theorem made_append (log more : Chronicle) : (log ++ more).made = log.made ++ more.made :=
  List.filterMap_append

theorem made_snoc (log : Chronicle) (e : Entry) :
    (log ++ [e]).made = log.made ++ e.change?.toList := by
  rw [made_append]
  cases found : e.change? <;> simp [made, found]

theorem completions_append (log more : Chronicle) :
    (log ++ more).completions = log.completions ++ more.completions :=
  List.filterMap_append

theorem completions_snoc (log : Chronicle) (e : Entry) :
    (log ++ [e]).completions = log.completions ++ e.completion?.toList := by
  rw [completions_append]
  cases found : e.completion? <;> simp [completions, found]

theorem handedOut_snoc (log : Chronicle) (e : Entry) :
    (log ++ [e]).handedOut = log.handedOut ++ e.handedOut := by
  rw [handedOut, List.flatMap_append, List.flatMap_singleton]
  rfl

theorem made_snoc_of_some {c : Change} (found : log.made[i]? = some c) (e : Entry) :
    (log ++ [e]).made[i]? = some c := by
  have inside := (List.getElem?_eq_some_iff.mp found).1
  rw [made_snoc, List.getElem?_append_left inside]
  exact found

theorem Numbered.snoc {numbers : List Nat} {cs : List Change} (h : log.Numbered numbers cs)
    (e : Entry) : (log ++ [e]).Numbered numbers cs := by
  have same : numbers.map ((log ++ [e]).made[·]?) = numbers.map (log.made[·]?) := by
    refine List.map_congr_left fun n hn => ?_
    have found : log.made[n]? ∈ cs.map some := by
      rw [← h]
      exact List.mem_map_of_mem hn
    obtain ⟨c, -, hc⟩ := List.mem_map.mp found
    rw [← hc]
    exact made_snoc_of_some hc.symm e
  exact same.trans h

theorem Numbered.append {numbers others : List Nat} {cs ds : List Change}
    (h : log.Numbered numbers cs) (h' : log.Numbered others ds) :
    log.Numbered (numbers ++ others) (cs ++ ds) := by
  rw [Numbered] at h h' ⊢
  rw [List.map_append, List.map_append, h, h']

theorem Numbered.split {numbers : List Nat} {cs ds : List Change}
    (h : log.Numbered numbers (cs ++ ds)) :
    log.Numbered (numbers.take cs.length) cs ∧ log.Numbered (numbers.drop cs.length) ds := by
  have whole : numbers.map (log.made[·]?) = (cs ++ ds).map some := h
  constructor
  · rw [Numbered, List.map_take, whole, List.map_append, ← List.length_map (f := some),
      List.take_left]
  · rw [Numbered, List.map_drop, whole, List.map_append, ← List.length_map (f := some),
      List.drop_left]

theorem Numbered.length {numbers : List Nat} {cs : List Change} (h : log.Numbered numbers cs) :
    numbers.length = cs.length := by
  have := congrArg List.length h
  simpa using this

theorem Numbered.mem {numbers : List Nat} {cs : List Change} (h : log.Numbered numbers cs)
    (hi : i ∈ numbers) :
    ∃ c ∈ cs, log.made[i]? = some c := by
  have found : log.made[i]? ∈ cs.map some := by
    rw [← h]
    exact List.mem_map_of_mem hi
  obtain ⟨c, hc, same⟩ := List.mem_map.mp found
  exact ⟨c, hc, same.symm⟩

theorem status_next (log : Chronicle) : log.status.next = log.made.length := by
  induction log using List.reverseRecOn with
  | nil => rfl
  | append_singleton log e ih =>
    rw [status_snoc, made_snoc, List.length_append, ← ih]
    cases e with
    | lost cause numbers => cases cause <;> rfl
    | kept c => rfl
    | ended completion tooLarge handed => rfl
    | taken completion handed => rfl
    | shut numbers => rfl

/-- Every part of a sound chronicle from its beginning is sound, and the next entry follows it. -/
theorem Sound.split {before after : Chronicle} (h : Sound room (before ++ e :: after)) :
    Sound room before ∧ Follows room before e := by
  induction after using List.reverseRecOn with
  | nil =>
    obtain ⟨log, e', split, sound, follows⟩ : ∃ log e', before ++ [e] = log ++ [e'] ∧
        Sound room log ∧ Follows room log e' := by
      generalize whole : before ++ [e] = all at h
      cases h with
      | nil => simp at whole
      | snoc sound follows => exact ⟨_, _, rfl, sound, follows⟩
    obtain ⟨rfl, same⟩ := List.append_inj' split rfl
    obtain rfl := List.singleton_inj.mp same
    exact ⟨sound, follows⟩
  | append_singleton after last ih =>
    refine ih ?_
    generalize whole : before ++ e :: (after ++ [last]) = all at h
    cases h with
    | nil => simp at whole
    | @snoc log e' sound follows =>
      have split : (before ++ e :: after) ++ [last] = log ++ [e'] := by
        rw [← whole, List.append_assoc]
        rfl
      rw [(List.append_inj' split rfl).1]
      exact sound

/-! ## Order -/

/-- The changes that have been handed out or are about to be. -/
def sent (log : Chronicle) : List Nat := log.handedOut ++ log.status.storedNumbers

/-- The changes that are still there. -/
def ahead (log : Chronicle) : List Nat := log.status.storedNumbers ++ log.status.waiting

/-- The changes that have been handed out or still may be, in order. -/
def current (log : Chronicle) : List Nat := log.handedOut ++ log.ahead

theorem current_eq (log : Chronicle) : log.current = log.sent ++ log.status.waiting :=
  (List.append_assoc ..).symm

theorem storedNumbers_of_none {s : Status} (none_stored : s.stored = none) :
    s.storedNumbers = [] := by
  rw [Status.storedNumbers, none_stored]

theorem storedNumbers_of_some {s : Status} {completion : Completion} {numbers : List Nat}
    (stored : s.stored = some (completion, numbers)) : s.storedNumbers = numbers := by
  rw [Status.storedNumbers, stored]

theorem handedOut_snoc_of_nil (none_out : e.handedOut = []) :
    (log ++ [e]).handedOut = log.handedOut := by
  rw [handedOut_snoc, none_out, List.append_nil]

theorem drop_parts (first second rest : List Nat) :
    (first ++ (second ++ rest)).drop (first.length + second.length) = rest := by
  rw [← List.append_assoc, ← List.length_append, List.drop_left]

/-- Only the end of a read puts changes out of the journal, and it puts them behind the others. -/
theorem Follows.sent_eq (follows : Follows room log e) (no_end : e.isEnd = false) :
    (log ++ [e]).sent = log.sent := by
  rw [sent, sent, status_snoc, handedOut_snoc]
  cases follows with
  | ended => simp [Entry.isEnd] at no_end
  | @taken completion handed stored =>
    -- what was about to be handed out now is
    rw [storedNumbers_of_some stored]
    exact List.append_nil _
  | kept => rw [show (Entry.kept _).handedOut = [] from rfl, List.append_nil]; rfl
  | lost => rw [show (Entry.lost _ _).handedOut = [] from rfl, List.append_nil]; rfl
  | shut => rw [show (Entry.shut _).handedOut = [] from rfl, List.append_nil]; rfl

/-- An entry adds the next number or takes some away. -/
theorem Follows.current (follows : Follows room log e) :
    (log ++ [e]).current = log.current ++ [log.status.next] ∧
        (log ++ [e]).status.next = log.status.next + 1 ∨
      (log ++ [e]).current.Sublist log.current ∧
        log.status.next ≤ (log ++ [e]).status.next := by
  have same := follows.sent_eq
  rw [current_eq, current_eq]
  cases follows with
  | kept =>
    refine .inl ⟨?_, by rw [status_snoc]; rfl⟩
    rw [same rfl, status_snoc, List.append_assoc]
    rfl
  | @lost cause =>
    refine .inr ⟨?_, by rw [status_snoc]; exact Nat.le_add_right ..⟩
    rw [same rfl, status_snoc]
    exact (List.nil_sublist _).append_left _
  | @ended completion tooLarge handed rest _ none_stored front =>
    refine .inr ⟨?_, by rw [status_snoc]; exact Nat.le_refl _⟩
    rw [sent, sent, handedOut_snoc_of_nil rfl, status_snoc, storedNumbers_of_none none_stored,
      front]
    simp only [Status.after, Status.storedNumbers, front, drop_parts, List.append_nil,
      List.append_assoc]
    exact (List.sublist_append_right _ _).append_left _
  | taken =>
    refine .inr ⟨?_, by rw [status_snoc]; exact Nat.le_refl _⟩
    rw [same rfl, status_snoc]
    exact List.Sublist.refl _
  | shut =>
    refine .inr ⟨?_, by rw [status_snoc]; exact Nat.le_refl _⟩
    rw [same rfl, status_snoc]
    exact (List.nil_sublist _).append_left _

/-- Numbers are handed out, taken and waited for in order. -/
theorem Sound.ordered (h : Sound room log) :
    log.current.Pairwise (· < ·) ∧ ∀ m ∈ log.current, m < log.status.next := by
  -- the next number is beyond all that are there, so that adding it keeps the order
  induction h with
  | nil =>
    refine ⟨List.Pairwise.nil, fun m hm => ?_⟩
    simp [Chronicle.current, ahead, handedOut, status, Status.storedNumbers] at hm
  | @snoc log e _ follows ih =>
    obtain ⟨pairwise, below⟩ := ih
    rcases follows.current with ⟨grown, next⟩ | ⟨shrunk, next⟩
    · rw [grown, next]
      refine ⟨List.pairwise_append.mpr ⟨pairwise, List.pairwise_singleton _ _, ?_⟩, ?_⟩
      · intro m hm n hn
        rw [List.mem_singleton.mp hn]
        exact below m hm
      · intro m hm
        rcases List.mem_append.mp hm with hm | hm
        · exact Nat.lt_succ_of_lt (below m hm)
        · rw [List.mem_singleton.mp hm]
          exact Nat.lt_succ_self _
    · refine ⟨pairwise.sublist shrunk, fun m hm => ?_⟩
      exact Nat.lt_of_lt_of_le (below m (shrunk.subset hm)) next

theorem Sound.handedOut_ordered (h : Sound room log) : log.handedOut.Pairwise (· < ·) :=
  (List.pairwise_append.mp h.ordered.1).1

theorem Sound.handedOut_lt (h : Sound room log) (out : i ∈ log.handedOut) (there : j ∈ log.ahead) :
    i < j :=
  (List.pairwise_append.mp h.ordered.1).2.2 i out j there

theorem Sound.sent_lt (h : Sound room log) (sent : i ∈ log.sent) (waits : j ∈ log.status.waiting) :
    i < j := by
  have ordered := h.ordered.1
  rw [current_eq] at ordered
  exact (List.pairwise_append.mp ordered).2.2 i sent j waits

/-! ## What was handed out -/

/-- The changes that completions decode to have the numbers that they are handed out under. -/
theorem Sound.numbered (h : Sound room log) :
    log.Numbered log.handedOut (log.completions.flatMap Completion.changes) ∧
    ∀ completion numbers, log.status.stored = some (completion, numbers) →
      log.Numbered numbers completion.changes := by
  induction h with
  | nil =>
    refine ⟨rfl, fun _ _ stored => ?_⟩
    simp [status] at stored
  | @snoc log e _ follows ih =>
    obtain ⟨out, stored⟩ := ih
    have later := out.snoc e
    constructor
    · rw [completions_snoc, handedOut_snoc, List.flatMap_append]
      cases follows with
      | @taken completion handed now =>
        refine later.append ?_
        rw [show (Entry.taken completion handed).completion?.toList = [completion] from rfl,
          List.flatMap_singleton]
        exact (stored completion handed now).snoc _
      | kept => simpa [Entry.completion?, Entry.handedOut] using later
      | lost => simpa [Entry.completion?, Entry.handedOut] using later
      | ended => simpa [Entry.completion?, Entry.handedOut] using later
      | shut => simpa [Entry.completion?, Entry.handedOut] using later
    · intro completion numbers now
      rw [status_snoc] at now
      cases follows with
      | kept => exact (stored completion numbers now).snoc _
      | lost => exact (stored completion numbers now).snoc _
      | ended _ _ _ _ content =>
        obtain ⟨rfl, rfl⟩ := Prod.mk.inj (Option.some.inj now)
        exact content.snoc _
      | taken => simp [Status.after] at now
      | shut => exact (stored completion numbers now).snoc _

/-! ## What was given up -/

/-- An entry keeps what was there, or says that it gives it up. -/
theorem Follows.keeps (follows : Follows room log e) (there : i ∈ log.current) :
    i ∈ (log ++ [e]).current ∨ i ∈ e.givenUp := by
  have same := follows.sent_eq
  rw [current_eq] at there ⊢
  rcases List.mem_append.mp there with sent | waits
  · cases follows with
    | @ended completion tooLarge handed rest _ none_stored =>
      rw [Chronicle.sent, storedNumbers_of_none none_stored, List.append_nil] at sent
      refine .inl (List.mem_append_left _ (List.mem_append_left _ ?_))
      rwa [handedOut_snoc_of_nil rfl]
    | kept => exact .inl (List.mem_append_left _ (by rwa [same rfl]))
    | lost => exact .inl (List.mem_append_left _ (by rwa [same rfl]))
    | taken => exact .inl (List.mem_append_left _ (by rwa [same rfl]))
    | shut => exact .inl (List.mem_append_left _ (by rwa [same rfl]))
  · rw [Chronicle.sent, status_snoc]
    cases follows with
    | kept => exact .inl (List.mem_append_right _ (List.mem_append_left _ waits))
    | lost => exact .inr (List.mem_append_left _ waits)
    | taken => exact .inl (List.mem_append_right _ waits)
    | shut => exact .inr waits
    | @ended completion tooLarge handed rest _ _ front =>
      -- the read comes to the three parts of what waits one after another
      rw [front] at waits
      simp only [Status.after, Status.storedNumbers, front, drop_parts]
      rcases List.mem_append.mp waits with large | waits
      · exact .inr large
      · rcases List.mem_append.mp waits with now | later
        · exact .inl (List.mem_append_left _ (List.mem_append_right _ now))
        · exact .inl (List.mem_append_right _ later)

/-- Every change has been handed out or still may be, unless an entry has given it up. -/
theorem Sound.fate (h : Sound room log) (made : i < log.made.length) :
    i ∈ log.current ∨ ∃ e ∈ log, i ∈ e.givenUp := by
  induction h with
  | nil => simp [Chronicle.made] at made
  | @snoc log e _ follows ih =>
    by_cases old : i < log.made.length
    · rcases ih old with there | ⟨e', mem, given_up⟩
      · exact (follows.keeps there).imp id fun gone => ⟨e, by simp, gone⟩
      · exact .inr ⟨e', List.mem_append_left _ mem, given_up⟩
    · -- the change is the one that has just been made
      have next : log.status.next = log.made.length := status_next log
      rw [made_snoc, List.length_append] at made
      cases follows with
      | kept =>
        obtain rfl : i = log.status.next := by
          simp [Entry.change?] at made
          omega
        rw [current_eq]
        refine .inl (List.mem_append_right _ ?_)
        rw [status_snoc]
        exact List.mem_append_right _ List.mem_cons_self
      | @lost cause =>
        cases comes : cause.change? with
        | none =>
          simp [Entry.change?, comes] at made
          omega
        | some c =>
          obtain rfl : i = log.status.next := by
            simp [Entry.change?, comes] at made
            omega
          refine .inr ⟨_, List.mem_append_right _ List.mem_cons_self, ?_⟩
          simp [Entry.givenUp, Status.arriving, comes]
      | ended => simp [Entry.change?] at made; omega
      | taken => simp [Entry.change?] at made; omega
      | shut => simp [Entry.change?] at made; omega

/-- A change that was too large for the read that came to it has a larger record than its buffer. -/
theorem Sound.tooLarge (h : Sound room log) {completion : Completion} {tooLarge handed : List Nat}
    (mem : Entry.ended completion tooLarge handed ∈ log) (large : i ∈ tooLarge) :
    ∃ buffer bytes c, completion = .done buffer bytes ∧ log.made[i]? = some c ∧
      buffer.size < c.recordSize := by
  induction h with
  | nil => simp at mem
  | @snoc log e _ follows ih =>
    have found : ∃ buffer bytes c, completion = .done buffer bytes ∧ log.made[i]? = some c ∧
        buffer.size < c.recordSize := by
      rcases List.mem_append.mp mem with old | new
      · exact ih old
      · obtain rfl := List.mem_singleton.mp new
        cases follows with
        | ended _ _ _ all_large => exact all_large i large
    obtain ⟨buffer, bytes, c, completes, is_change, larger⟩ := found
    exact ⟨buffer, bytes, c, completes, made_snoc_of_some is_change e, larger⟩

/-- What goes with a directory that is closed comes after all that is handed out. -/
theorem Sound.shut (h : Sound room log) {numbers : List Nat} (mem : Entry.shut numbers ∈ log)
    (gone : i ∈ numbers) : log.status.shut = true ∧ ∀ m ∈ log.sent, m < i := by
  induction h with
  | nil => simp at mem
  | @snoc log e before follows ih =>
    have same := follows.sent_eq
    rw [status_snoc]
    rcases List.mem_append.mp mem with old | new
    · -- no read ends any more, so that nothing else is sent
      obtain ⟨shut, below⟩ := ih old
      cases follows with
      | kept still_open => simp [shut] at still_open
      | lost still_open => simp [shut] at still_open
      | ended still_open => simp [shut] at still_open
      | taken =>
        rw [same rfl]
        exact ⟨shut, below⟩
      | shut =>
        rw [same rfl]
        exact ⟨rfl, below⟩
    · obtain rfl := List.mem_singleton.mp new
      rw [same rfl]
      cases follows with
      | shut => exact ⟨rfl, fun m sent => before.sent_lt sent gone⟩

/-- Nothing waits behind a loss that is untold. -/
theorem Sound.untold_waiting (h : Sound room log) (untold : log.status.untold = true) :
    log.status.waiting = [] := by
  induction h with
  | nil => rfl
  | @snoc log e _ follows ih =>
    rw [status_snoc] at untold ⊢
    cases follows with
    | kept _ told =>
      have still : log.status.untold = true := untold
      simp [told] at still
    | lost => rfl
    | ended => simp [Status.after] at untold
    | taken => exact ih untold
    | shut => rfl

end Chronicle

end DirWatch
