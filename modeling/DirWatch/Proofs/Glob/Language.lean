import DirWatch.Glob.Matcher
import Mathlib.Tactic.Simproc.ExistsAndEq
import Mathlib.Tactic.Tauto

/-!
# The language of a glob

`Token.Takes` says which bytes a token stands for, and `TakesAll` which ones tokens in a row do,
without going through a path. The matcher finds just these (`isMatch_iff`): at every point it has
the list of what may be left of the path, and a token leaves behind what its bytes can be taken off
(`Token.behind_advance`). That the rests are ends of one path, longest first (`Rests.Of`), is what
lets the matcher look at the longest one only.
-/

namespace DirWatch.Glob

/-! ## Bytes without regard to case -/

/-- Bytes with ASCII capitals made small. -/
def folded (bytes : List UInt8) : List UInt8 := bytes.map lower

@[simp] theorem folded_append (u v : List UInt8) : folded (u ++ v) = folded u ++ folded v :=
  List.map_append

/-- Two bytes differ at most in their case if they are the same or one is the other case of the
other. -/
theorem lower_eq_lower_iff (x b : UInt8) : lower x = lower b ↔ x = b ∨ x = otherCase b := by
  unfold lower otherCase
  grind

/-- The bytes of a class, before negation. -/
def InSet (ranges : List (Char × Char)) (b : UInt8) : Prop :=
  ∃ r ∈ ranges.flatMap fun r => byteRanges r.1 r.2, r.1 ≤ b ∧ b ≤ r.2

/-- A class takes a byte if it has the byte in either case, and a negated one if it has it in
neither. -/
theorem inClass_iff (negated : Bool) (ranges : List (Char × Char)) (b : UInt8) :
    inClass negated ranges b = true ↔
      ((∃ x, lower x = lower b ∧ InSet ranges x) ↔ negated = false) := by
  have within : ∀ x, inRanges (ranges.flatMap fun r => byteRanges r.1 r.2) x = true ↔
      InSet ranges x := by
    intro x
    simp only [inRanges, InSet, List.any_eq_true, Bool.and_eq_true, decide_eq_true_eq]
  have either : (∃ x, lower x = lower b ∧ InSet ranges x) ↔
      InSet ranges b ∨ InSet ranges (otherCase b) := by
    simp only [lower_eq_lower_iff, or_and_right, exists_or, exists_eq_left]
  rw [either, ← within, ← within, ← Bool.or_eq_true]
  simp only [inClass]
  cases negated <;> simp

/-! ## What tokens stand for -/

mutual

/-- The bytes that a token stands for. -/
def Token.Takes : Token → List UInt8 → Prop
  | .literal c, w => folded w = folded (bytesOf c)
  | .anyByte, w => ∃ b, w = [b]
  | .anyText, _ => True
  | .anyParents, w => w = [] ∨ ∃ u, w = u ++ [0x2F]
  | .anyBelow, w => ∃ u, w = 0x2F :: u
  | .anyBetween, w => w = [0x2F] ∨ ∃ u, w = 0x2F :: u ++ [0x2F]
  | .oneOf negated ranges, w =>
    ∃ b, w = [b] ∧ ((∃ x, lower x = lower b ∧ InSet ranges x) ↔ negated = false)
  | .choice branches, w => if noBranch branches then w = [] else TakesAny branches w

/-- The bytes that tokens in a row stand for. -/
def TakesAll : List Token → List UInt8 → Prop
  | [], w => w = []
  | t :: ts, w => ∃ u v, w = u ++ v ∧ t.Takes u ∧ TakesAll ts v

/-- The bytes that one of the branches stands for; those with nothing in them do not count. -/
def TakesAny : List (List Token) → List UInt8 → Prop
  | [], _ => False
  | b :: bs, w => (noToken b = false ∧ TakesAll b w) ∨ TakesAny bs w

end

theorem takesAll_append (ts us : List Token) (w : List UInt8) :
    TakesAll (ts ++ us) w ↔ ∃ u v, w = u ++ v ∧ TakesAll ts u ∧ TakesAll us v := by
  induction ts generalizing w with
  | nil =>
    constructor
    · intro h
      exact ⟨[], w, rfl, rfl, h⟩
    · rintro ⟨u, v, rfl, rfl, h⟩
      exact h
  | cons t ts ih =>
    constructor
    · rintro ⟨u, v, rfl, first, h⟩
      obtain ⟨u', v', rfl, middle, last⟩ := (ih v).mp h
      exact ⟨u ++ u', v', (List.append_assoc ..).symm, ⟨u, u', rfl, first, middle⟩, last⟩
    · rintro ⟨_, v, rfl, ⟨u, u', rfl, first, middle⟩, last⟩
      exact ⟨u, u' ++ v, List.append_assoc .., first, (ih _).mpr ⟨u', v, rfl, middle, last⟩⟩

/-! ## What may be left -/

namespace Rests

/-- Ends of a path, longest first and nothing twice. -/
structure Of (path : List UInt8) (s : Rests) : Prop where
  suffix : ∀ r ∈ s, r <:+ path
  ordered : s.Pairwise fun a b => b.length < a.length

variable {path r : List UInt8} {s t t' : Rests}

theorem of_path (path : List UInt8) : Of path [path] :=
  ⟨fun _ mem => List.mem_singleton.mp mem ▸ List.suffix_rfl, List.pairwise_singleton _ _⟩

theorem Of.nil : Of path [] := ⟨fun _ mem => absurd mem List.not_mem_nil, .nil⟩

theorem Of.tail {a : List UInt8} (h : Of path (a :: s)) : Of path s :=
  ⟨fun r mem => h.suffix r (List.mem_cons_of_mem a mem), (List.pairwise_cons.mp h.ordered).2⟩

/-- Ends of one path that are equally long are the same. -/
theorem eq_of_length {a b : List UInt8} (ha : a <:+ path) (hb : b <:+ path)
    (same : a.length = b.length) : a = b :=
  (List.suffix_of_suffix_length_le ha hb (Nat.le_of_eq same)).eq_of_length same

/-- All that may be left is an end of the longest rest. -/
theorem Of.suffix_head {a : List UInt8} (h : Of path (a :: s)) (mem : r ∈ a :: s) : r <:+ a := by
  rcases List.mem_cons.mp mem with rfl | later
  · exact List.suffix_refl r
  · have shorter := (List.pairwise_cons.mp h.ordered).1 r later
    exact List.suffix_of_suffix_length_le (h.suffix r mem) (h.suffix a List.mem_cons_self)
      (Nat.le_of_lt shorter)

/-- Some bytes can be taken off what was left, and these are the ends behind them. -/
structure Behind (path : List UInt8) (taken : List UInt8 → Prop) (s s' : Rests) : Prop where
  of : Of path s'
  mem_iff : ∀ r, r ∈ s' ↔ ∃ u, taken u ∧ u ++ r ∈ s

theorem Behind.congr {P Q : List UInt8 → Prop} (h : Behind path P s t) (same : ∀ w, P w ↔ Q w) :
    Behind path Q s t :=
  ⟨h.of, fun r => by simp only [h.mem_iff, same]⟩

/-- Nothing is taken off. -/
theorem Of.behind_self (h : Of path s) : Behind path (· = []) s s :=
  ⟨h, fun r => by simp⟩

/-- Bytes are taken off, and then others. -/
theorem Behind.trans {P Q : List UInt8 → Prop} (first : Behind path P s t)
    (second : Behind path Q t t') :
    Behind path (fun w => ∃ u v, w = u ++ v ∧ P u ∧ Q v) s t' := by
  refine ⟨second.of, fun r => ?_⟩
  simp only [second.mem_iff, first.mem_iff]
  constructor
  · rintro ⟨v, hv, u, hu, mem⟩
    exact ⟨u ++ v, ⟨u, v, rfl, hu, hv⟩, by rwa [List.append_assoc]⟩
  · rintro ⟨_, ⟨u, v, rfl, hu, hv⟩, mem⟩
    exact ⟨v, hv, u, hu, by rwa [← List.append_assoc]⟩

/-! ### One byte -/

theorem mem_byte {p : UInt8 → Bool} : r ∈ s.byte p ↔ ∃ b, p b = true ∧ b :: r ∈ s := by
  simp only [byte, List.mem_filterMap]
  constructor
  · rintro ⟨a, mem, found⟩
    cases a with
    | nil => simp at found
    | cons b rest =>
      simp only [Option.ite_none_right_eq_some, Option.some.injEq] at found
      obtain ⟨admitted, rfl⟩ := found
      exact ⟨b, admitted, mem⟩
  · rintro ⟨b, admitted, mem⟩
    exact ⟨b :: r, mem, by simp [admitted]⟩

theorem Of.byte (h : Of path s) (p : UInt8 → Bool) : Of path (s.byte p) := by
  refine ⟨?_, ?_⟩
  · intro r mem
    obtain ⟨b, -, found⟩ := mem_byte.mp mem
    exact (List.suffix_cons b r).trans (h.suffix _ found)
  · refine h.ordered.filterMap _ ?_
    intro a a' shorter rest found rest' found'
    cases a <;> cases a' <;> simp_all

theorem Of.behind_byte (h : Of path s) (p : UInt8 → Bool) :
    Behind path (fun w => ∃ b, w = [b] ∧ p b = true) s (s.byte p) := by
  refine ⟨h.byte p, fun r => ?_⟩
  rw [mem_byte]
  constructor
  · rintro ⟨b, admitted, mem⟩
    exact ⟨[b], ⟨b, rfl, admitted⟩, mem⟩
  · rintro ⟨_, ⟨b, rfl, admitted⟩, mem⟩
    exact ⟨b, admitted, mem⟩

theorem Of.behind_slash (h : Of path s) : Behind path (· = [0x2F]) s (s.byte (· == 0x2F)) :=
  (h.behind_byte _).congr fun w => by simp

/-- The bytes of a character, in either case. -/
theorem Of.behind_bytes (h : Of path s) (bytes : List UInt8) :
    Behind path (fun w => folded w = folded bytes) s (s.bytes bytes) := by
  induction bytes generalizing s with
  | nil => exact h.behind_self.congr fun w => by simp [folded]
  | cons b bytes ih =>
    refine ((h.behind_byte fun x => lower x == lower b).trans (ih (h.byte _))).congr fun w => ?_
    constructor
    · rintro ⟨_, v, rfl, ⟨x, rfl, same⟩, rest⟩
      rw [beq_iff_eq] at same
      rw [folded_append, rest]
      simp [folded, same]
    · intro same
      cases w with
      | nil => simp [folded] at same
      | cons x w =>
        simp only [folded, List.map_cons, List.cons.injEq] at same
        exact ⟨[x], w, rfl, ⟨x, rfl, by simpa using same.1⟩, same.2⟩

/-! ### Any bytes -/

theorem mem_tailsOf {a : List UInt8} : r ∈ tailsOf a ↔ r <:+ a := by
  induction a with
  | nil => simp [tailsOf]
  | cons b a ih => rw [tailsOf, List.mem_cons, ih, List.suffix_cons_iff]

theorem of_tailsOf {a : List UInt8} (end_of : a <:+ path) : Of path (tailsOf a) := by
  refine ⟨fun r mem => (mem_tailsOf.mp mem).trans end_of, ?_⟩
  induction a with
  | nil => exact List.pairwise_singleton _ _
  | cons b a ih =>
    refine List.pairwise_cons.mpr ⟨?_, ih ((List.suffix_cons b a).trans end_of)⟩
    intro r mem
    exact Nat.lt_succ_of_le (mem_tailsOf.mp mem).length_le

theorem Of.behind_any (h : Of path s) : Behind path (fun _ => True) s s.any := by
  cases s with
  | nil => exact ⟨.nil, fun r => by simp [any]⟩
  | cons longest rest =>
    refine ⟨of_tailsOf (h.suffix longest List.mem_cons_self), fun r => ?_⟩
    rw [any, mem_tailsOf]
    constructor
    · rintro ⟨u, rfl⟩
      exact ⟨u, trivial, List.mem_cons_self⟩
    · rintro ⟨u, -, mem⟩
      exact (List.suffix_append u r).trans (h.suffix_head mem)

/-! ### Anything up to a slash -/

theorem mem_afterSlashes {a : List UInt8} : r ∈ afterSlashes a ↔ 0x2F :: r <:+ a := by
  induction a with
  | nil => simp [afterSlashes]
  | cons b a ih =>
    rw [afterSlashes, List.suffix_cons_iff, List.cons.injEq, ← ih]
    split
    · next slash => simp [slash]
    · next other => simp [Ne.symm other]

theorem of_afterSlashes {a : List UInt8} (end_of : a <:+ path) : Of path (afterSlashes a) := by
  refine ⟨fun r mem =>
    (List.suffix_cons 0x2F r).trans ((mem_afterSlashes.mp mem).trans end_of), ?_⟩
  induction a with
  | nil => exact .nil
  | cons b a ih =>
    have shorter := ih ((List.suffix_cons b a).trans end_of)
    rw [afterSlashes]
    split
    · refine List.pairwise_cons.mpr ⟨?_, shorter⟩
      intro r mem
      exact (mem_afterSlashes.mp mem).length_le
    · exact shorter

theorem Of.behind_throughSlash (h : Of path s) :
    Behind path (fun w => ∃ u, w = u ++ [0x2F]) s s.throughSlash := by
  cases s with
  | nil => exact ⟨.nil, fun r => by simp [throughSlash]⟩
  | cons longest rest =>
    refine ⟨of_afterSlashes (h.suffix longest List.mem_cons_self), fun r => ?_⟩
    rw [throughSlash, mem_afterSlashes]
    constructor
    · rintro ⟨u, whole⟩
      refine ⟨u ++ [0x2F], ⟨u, rfl⟩, ?_⟩
      rw [List.append_assoc, List.singleton_append, whole]
      exact List.mem_cons_self
    · rintro ⟨_, ⟨u, rfl⟩, mem⟩
      rw [List.append_assoc] at mem
      exact (List.suffix_append u _).trans (h.suffix_head mem)

/-! ### Either of two ways -/

theorem mem_merge (hs : Of path s) (ht : Of path t) : r ∈ s.merge t ↔ r ∈ s ∨ r ∈ t := by
  fun_induction Rests.merge s t with
  | case1 t => simp
  | case2 s => simp
  | case3 a s b t longer ih =>
    rw [List.mem_cons, ih hs.tail ht, List.mem_cons (l := s)]
    tauto
  | case4 a s b t _ longer ih =>
    rw [List.mem_cons, ih hs ht.tail, List.mem_cons (l := t)]
    tauto
  | case5 a s b t _ _ ih =>
    -- the first rests are equally long, hence the same
    have same : a = b := eq_of_length (hs.suffix a List.mem_cons_self)
      (ht.suffix b List.mem_cons_self) (by omega)
    rw [List.mem_cons, ih hs.tail ht.tail, List.mem_cons, List.mem_cons, same]
    tauto

theorem Of.merge (hs : Of path s) (ht : Of path t) : Of path (s.merge t) := by
  refine ⟨?_, ?_⟩
  · intro r mem
    rcases (mem_merge hs ht).mp mem with left | right
    · exact hs.suffix r left
    · exact ht.suffix r right
  · fun_induction Rests.merge s t with
    | case1 t => exact ht.ordered
    | case2 s => exact hs.ordered
    | case3 a s b t longer ih =>
      refine List.pairwise_cons.mpr ⟨?_, ih hs.tail ht⟩
      intro r mem
      rcases (mem_merge hs.tail ht).mp mem with left | right
      · exact (List.pairwise_cons.mp hs.ordered).1 r left
      · exact Nat.lt_of_le_of_lt (ht.suffix_head right).length_le longer
    | case4 a s b t _ longer ih =>
      refine List.pairwise_cons.mpr ⟨?_, ih hs ht.tail⟩
      intro r mem
      rcases (mem_merge hs ht.tail).mp mem with left | right
      · exact Nat.lt_of_le_of_lt (hs.suffix_head left).length_le longer
      · exact (List.pairwise_cons.mp ht.ordered).1 r right
    | case5 a s b t _ _ ih =>
      refine List.pairwise_cons.mpr ⟨?_, ih hs.tail ht.tail⟩
      intro r mem
      rcases (mem_merge hs.tail ht.tail).mp mem with left | right
      · exact (List.pairwise_cons.mp hs.ordered).1 r left
      · have shorter := (List.pairwise_cons.mp ht.ordered).1 r right
        omega

theorem Behind.merge {P Q : List UInt8 → Prop} (left : Behind path P s t)
    (right : Behind path Q s t') : Behind path (fun w => P w ∨ Q w) s (t.merge t') := by
  refine ⟨left.of.merge right.of, fun r => ?_⟩
  rw [mem_merge left.of right.of, left.mem_iff, right.mem_iff]
  simp only [or_and_right, exists_or]

end Rests

/-! ## Tokens -/

mutual

/-- What is left behind a token. -/
theorem Token.behind_advance {path : List UInt8} {s : Rests} (t : Token) (h : s.Of path) :
    Rests.Behind path t.Takes s (t.advance s) := by
  match t with
  | .literal c => exact h.behind_bytes (bytesOf c)
  | .anyByte => exact (h.behind_byte _).congr fun w => by simp [Token.Takes]
  | .anyText => exact h.behind_any
  | .anyParents => exact h.behind_self.merge h.behind_throughSlash
  | .anyBelow =>
    exact (h.behind_slash.trans h.behind_slash.of.behind_any).congr fun w => by
      simp [Token.Takes]
  | .anyBetween =>
    have slash := h.behind_slash
    exact (slash.merge (slash.trans slash.of.behind_throughSlash)).congr fun w => by
      simp [Token.Takes]
  | .oneOf negated ranges =>
    exact (h.behind_byte _).congr fun w => by simp only [Token.Takes, inClass_iff]
  | .choice branches =>
    rw [Token.advance]
    by_cases void : noBranch branches = true
    · rw [if_pos void]
      exact h.behind_self.congr fun w => by rw [Token.Takes, if_pos void]
    · rw [if_neg void]
      exact (behind_advanceAny branches h).congr fun w => by rw [Token.Takes, if_neg void]

/-- What is left behind tokens in a row. -/
theorem behind_advanceAll {path : List UInt8} {s : Rests} (ts : List Token) (h : s.Of path) :
    Rests.Behind path (TakesAll ts) s (advanceAll ts s) := by
  match ts with
  | [] => exact h.behind_self
  | t :: ts =>
    have first := t.behind_advance h
    exact first.trans (behind_advanceAll ts first.of)

/-- What is left behind one of the branches. -/
theorem behind_advanceAny {path : List UInt8} {s : Rests} (bs : List (List Token))
    (h : s.Of path) : Rests.Behind path (TakesAny bs) s (advanceAny bs s) := by
  match bs with
  | [] => exact ⟨.nil, fun r => by simp [advanceAny, TakesAny]⟩
  | b :: bs =>
    have others := behind_advanceAny bs h
    rw [advanceAny]
    by_cases void : noToken b = true
    · rw [if_pos void]
      exact others.congr fun w => by simp [TakesAny, void]
    · rw [if_neg void]
      exact ((behind_advanceAll b h).merge others).congr fun w => by simp [TakesAny, void]

end

/-! ## Whole paths -/

/-- The paths that a glob stands for: what its tokens in a row do, and all paths if it consists of
leading components alone. -/
def Matches (tokens : List Token) (path : List UInt8) : Prop :=
  match tokens with
  | [.anyParents] => True
  | tokens => TakesAll tokens path

theorem matches_iff {tokens : List Token} (others : tokens ≠ [.anyParents]) (path : List UInt8) :
    Matches tokens path ↔ TakesAll tokens path := by
  unfold Matches
  split
  · exact absurd rfl others
  · exact Iff.rfl

/-- The matcher finds the paths that a glob stands for. -/
theorem isMatch_iff (tokens : List Token) (path : List UInt8) :
    isMatch tokens path = true ↔ Matches tokens path := by
  have whole : List.any (advanceAll tokens [path]) List.isEmpty = true ↔ TakesAll tokens path := by
    have left := behind_advanceAll tokens (Rests.of_path path)
    rw [List.any_eq_true]
    constructor
    · rintro ⟨r, mem, none_left⟩
      obtain rfl := List.isEmpty_iff.mp none_left
      obtain ⟨u, taken, found⟩ := (left.mem_iff []).mp mem
      rw [List.append_nil, List.mem_singleton] at found
      rwa [← found]
    · intro taken
      exact ⟨[], (left.mem_iff []).mpr ⟨path, taken, by simp⟩, rfl⟩
  unfold isMatch
  split
  · simp [Matches]
  · next others => rw [whole, matches_iff others]

end DirWatch.Glob
