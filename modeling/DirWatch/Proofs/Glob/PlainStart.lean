import DirWatch.Glob.Parser
import DirWatch.Proofs.Glob.Language

/-!
# Globs that start with a plain character

A glob that starts with a character without a meaning of its own has the character as its first
token, whatever follows (`head?_of_plainStart`): reading adds tokens behind it, and the tokens that
take the place of a slash never take its place (`State.StartsWith`). So the paths that such a glob
matches start with this character (`head?_of_isMatch`).
-/

namespace DirWatch

/-- A text whose bytes start with an ASCII character starts with this character. -/
theorem Text.head?_of_toBytes {c : Char} (ascii : c.toNat < 0x80) {s : List Char}
    (front : (toBytes s).head? = some (UInt8.ofNat c.toNat)) : s.head? = some c := by
  cases s with
  | nil => simp [toBytes] at front
  | cons d s =>
    have same : d.val.toNat = c.toNat := by
      simp only [toBytes, List.flatMap_cons, String.utf8EncodeChar] at front
      -- the first byte of a longer character is no ASCII character
      repeat' split at front
      all_goals
        have byte := congrArg UInt8.toNat (Option.some.inj front)
        simp only [UInt8.toNat_ofNat'] at byte
        omega
    rw [Char.toNat_inj.mp same]
    rfl

namespace Glob

/-! ## The first token while a glob is read -/

namespace State

/-- The branch of the whole glob, last token first, given the open branch and the open groups. -/
def trunkOf (branch : List Token) : List Group → List Token
  | [] => branch
  | g :: groups => trunkOf g.around groups

/-- The glob starts with a character, and no token for whole components can take its place: while
the character is all that has been read, no slash comes before what is read next. -/
structure StartsWith (st : State) (c : Char) : Prop where
  front : (trunkOf st.branch st.groups).getLast? = some (.literal c)
  alone : st.groups = [] → st.branch = [.literal c] → st.before ≠ some '/'

variable {st : State} {c : Char}

theorem getLast?_trunkOf_cons {branch : List Token} {groups : List Group} {first : Token}
    (h : (trunkOf branch groups).getLast? = some first) (t : Token) :
    (trunkOf (t :: branch) groups).getLast? = some first := by
  cases groups with
  | nil =>
    have read : branch.getLast? = some first := h
    show (t :: branch).getLast? = some first
    rw [List.getLast?_cons, read]
    rfl
  | cons g groups => exact h

theorem StartsWith.push (h : st.StartsWith c) (t : Token) (d : Char) :
    (st.push t d).StartsWith c := by
  refine ⟨getLast?_trunkOf_cons h.front t, ?_⟩
  intro ungrouped single
  have nothing : st.branch = [] := (List.cons.inj single).2
  have front := h.front
  rw [show st.groups = [] from ungrouped, nothing] at front
  contradiction

theorem StartsWith.openGroup (h : st.StartsWith c) : st.openGroup.StartsWith c :=
  ⟨h.front, fun ungrouped => absurd ungrouped (List.cons_ne_nil _ _)⟩

theorem StartsWith.comma (h : st.StartsWith c) : st.comma.StartsWith c := by
  obtain ⟨branch, groups, before⟩ := st
  cases groups with
  | nil => exact h.push (.literal ',') ','
  | cons g groups => exact ⟨h.front, fun ungrouped => absurd ungrouped (List.cons_ne_nil _ _)⟩

theorem StartsWith.closeGroup {st' : State} (h : st.StartsWith c)
    (closed : st.closeGroup = .ok st') : st'.StartsWith c := by
  obtain ⟨branch, groups, before⟩ := st
  cases groups with
  | nil => cases closed
  | cons g groups =>
    cases closed
    have front : (trunkOf g.around groups).getLast? = some (.literal c) := h.front
    exact ⟨getLast?_trunkOf_cons front _, fun _ single => by cases single⟩

/-- A token for whole components takes the place of a slash, never that of the first character. -/
theorem StartsWith.components (h : st.StartsWith c) (behind : st.atComponentStart = true)
    {t : Token} (other : t ≠ .literal c) (d : Char) : (st.components t d).StartsWith c := by
  obtain ⟨branch, groups, before⟩ := st
  have unchanged : ∀ {first : Token} {rest : List Token}, first ≠ .literal c →
      StartsWith ⟨first :: rest, groups, before⟩ c →
        StartsWith ⟨first :: rest, groups, some d⟩ c := by
    intro first rest differs h
    exact ⟨h.front, fun _ single => absurd (List.cons.inj single).1 differs⟩
  unfold State.components
  split
  · next read =>
    obtain rfl : branch = _ := read
    exact unchanged (by simp) h
  · next read =>
    obtain rfl : branch = _ := read
    exact unchanged (by simp) h
  · next first rest _ _ read =>
    obtain rfl : branch = _ := read
    refine ⟨?_, fun _ single => absurd (List.cons.inj single).1 other⟩
    show (trunkOf (t :: rest) groups).getLast? = some (.literal c)
    cases groups with
    | cons g groups => exact h.front
    | nil =>
      have front : (first :: rest).getLast? = some (.literal c) := h.front
      cases rest with
      | cons second rest =>
        have kept : (trunkOf (second :: rest) []).getLast? = some (.literal c) := by
          rwa [List.getLast?_cons_cons] at front
        exact getLast?_trunkOf_cons kept t
      | nil =>
        -- the character is all that has been read, so no slash comes before
        obtain rfl : first = .literal c := by simpa using front
        have no_slash := h.alone rfl rfl
        simp only [atComponentStart, List.isEmpty_nil, Bool.not_true, Bool.false_and,
          Bool.or_false, beq_iff_eq] at behind
        exact absurd behind no_slash
  · exact h.push t d

theorem StartsWith.doubleStar (h : st.StartsWith c) (s : List Char) :
    (doubleStar st s).1.StartsWith c := by
  have two : st.twoStars.StartsWith c := (h.push _ _).push _ _
  unfold Glob.doubleStar
  split
  · exact h.push _ _
  · exact h.push _ _
  · exact two
  · split
    · exact two
    · next here =>
      have behind : st.atComponentStart = true := by simpa using here
      split
      · exact h.components behind (by simp) _
      · split
        · exact h.components behind (by simp) _
        · split
          · exact h.components behind (by simp) _
          · exact two

end State

theorem head?_of_readFrom {st : State} {c : Char} {s : List Char} {tokens : List Token}
    (h : st.StartsWith c) (read : readFrom st s = .ok tokens) :
    tokens.head? = some (.literal c) := by
  fun_induction readFrom st s with
  | case1 st ungrouped =>
    cases read
    have front := h.front
    rw [List.isEmpty_iff.mp ungrouped] at front
    rw [List.head?_reverse]
    exact front
  | case2 | case4 | case6 | case8 => cases read
  | case3 st s _ ih => exact ih (h.doubleStar s) read
  | case5 st d s ih => exact ih (h.push _ _) read
  | case7 st s t rest _ ih => exact ih (h.push _ _) read
  | case9 st s st' closed ih => exact ih (h.closeGroup closed) read
  | case10 st s _ ih => exact ih (h.push _ _) read
  | case11 st s ih => exact ih (h.push _ _) read
  | case12 st s ih => exact ih h.openGroup read
  | case13 st s ih => exact ih h.comma read
  | case14 st d s =>
    next ih => exact ih (h.push _ _) read

/-! ## Plain characters -/

/-- Tells the characters that stand for themselves wherever a glob begins. The slash is not among
them: two stars behind it take its place. -/
def isPlainStart (c : Char) : Bool := c ∉ ['*', '\\', '[', '\x7d', '?', '\x7b', ',', '/']

theorem head?_of_plainStart {c : Char} (plain : isPlainStart c = true) {s : List Char}
    {tokens : List Token} (read : readFrom .start (c :: s) = .ok tokens) :
    tokens.head? = some (.literal c) := by
  simp only [isPlainStart, List.mem_cons, List.not_mem_nil, or_false, not_or,
    decide_eq_true_eq] at plain
  obtain ⟨star, escape, opened, closed, mark, group, comma, slash⟩ := plain
  rw [readFrom] at read
  · have first : (State.start.push (.literal c) c).StartsWith c :=
      ⟨rfl, fun _ _ => fun before => slash (Option.some.inj before)⟩
    exact head?_of_readFrom first read
  all_goals simp_all

/-- Where such a character has no case, the paths that the glob matches start with it. -/
theorem head?_of_isMatch {c : Char} (plain : isPlainStart c = true) (ascii : c.toNat < 0x80)
    (caseless : otherCase (UInt8.ofNat c.toNat) = UInt8.ofNat c.toNat) {s : List Char}
    {tokens : List Token} (read : readFrom .start (c :: s) = .ok tokens) {path : List Char}
    (found : isMatch tokens (Text.toBytes path) = true) : path.head? = some c := by
  have front := head?_of_plainStart plain read
  obtain ⟨rest, rfl⟩ : ∃ rest, tokens = .literal c :: rest := by
    cases tokens with
    | nil => contradiction
    | cons t rest => exact ⟨rest, by rw [Option.some.inj front]⟩
  rw [isMatch_iff, matches_iff (by simp)] at found
  obtain ⟨u, v, whole, first, -⟩ := found
  have one_byte : bytesOf c = [UInt8.ofNat c.toNat] := by
    have short : c.val.toNat ≤ 127 := Nat.le_of_lt_succ ascii
    simp only [bytesOf, Text.toBytes, List.flatMap_cons, List.flatMap_nil, List.append_nil,
      String.utf8EncodeChar, if_pos short]
    rfl
  rw [Token.Takes, one_byte] at first
  obtain ⟨b, more, rfl, same_case, -⟩ := List.map_eq_cons_iff.mp first
  apply Text.head?_of_toBytes ascii
  rw [whole, List.cons_append, List.head?_cons]
  rcases (lower_eq_lower_iff b _).mp same_case with rfl | other
  · rfl
  · rw [other, caseless]

end Glob

end DirWatch
