import DirWatch.Json.Scan

/-!
# Values that nobody reads

A value of any shape is skipped with the open brackets kept on a stack, so that nesting has no
limit. Its grammar is checked, its strings need no partners for their surrogates, and its numbers
may be of any size.
-/

namespace DirWatch.Json

/-- An open bracket. -/
inductive Frame where
  | array
  | object
  deriving DecidableEq

/-- The bracket that closes a frame. -/
def Frame.closing : Frame → Char
  | array => ']'
  | object => '\x7d'

/-- Where in a value the walk stands. -/
inductive Stage where
  /-- A value must come. -/
  | value
  /-- The innermost frame has just been opened. -/
  | opened
  /-- A value has just ended. -/
  | ended
  deriving DecidableEq

/-- Orders the stages between which the walk may pass without taking a character. -/
def Stage.rank : Stage → Nat
  | opened => 1
  | _ => 0

/-- Skips a scalar, or opens the frame of an array or an object. -/
def skipFront (s : List Char) : Except ReadError (Option Frame × List Char) :=
  match skipSpace s with
  | [] => .error .truncated
  | c :: r =>
    if c = 'n' then (skipWord "ull".toList r).map ((none, ·))
    else if c = 't' then (skipWord "rue".toList r).map ((none, ·))
    else if c = 'f' then (skipWord "alse".toList r).map ((none, ·))
    else if c = '"' then (skipString r).map ((none, ·))
    else if c = '[' then .ok (some .array, r)
    else if c = '\x7b' then .ok (some .object, r)
    else if c = '-' || c.isDigit then (skipNumber (c :: r)).map ((none, ·))
    else .error .malformed

/-- Takes one character that must come next, after blanks. -/
def skipMark (mark : Char) (s : List Char) : Except ReadError (List Char) :=
  match skipSpace s with
  | [] => .error .truncated
  | c :: r => if c = mark then .ok r else .error .malformed

/-- Skips the key of a member and its colon. -/
def skipKey (s : List Char) : Except ReadError (List Char) :=
  match skipMark '"' s with
  | .error e => .error e
  | .ok r =>
    match skipString r with
    | .error e => .error e
    | .ok r => skipMark ':' r

/-- Skips what comes before the value of an item: a key in an object, nothing in an array. -/
def skipItemHead (frame : Frame) (s : List Char) : Except ReadError (List Char) :=
  match frame with
  | .array => .ok s
  | .object => skipKey s

/-! ## What is left is shorter -/

theorem skipFront_lt {s f r} (h : skipFront s = .ok (f, r)) : r.length < s.length := by
  have space := skipSpace_le s
  unfold skipFront at h
  split at h
  · simp at h
  · next c u front =>
    rw [front] at space
    simp only [List.length_cons] at space
    repeat' split at h
    case _ =>
      obtain ⟨v, word, eq⟩ := ok_of_map_eq_ok h
      simp at eq
      have := skipWord_le word
      rw [← eq.2]; omega
    case _ =>
      obtain ⟨v, word, eq⟩ := ok_of_map_eq_ok h
      simp at eq
      have := skipWord_le word
      rw [← eq.2]; omega
    case _ =>
      obtain ⟨v, word, eq⟩ := ok_of_map_eq_ok h
      simp at eq
      have := skipWord_le word
      rw [← eq.2]; omega
    case _ =>
      obtain ⟨v, text, eq⟩ := ok_of_map_eq_ok h
      simp at eq
      have := skipString_lt text
      rw [← eq.2]; omega
    case _ => simp at h; rw [← h.2]; omega
    case _ => simp at h; rw [← h.2]; omega
    case _ =>
      obtain ⟨v, number, eq⟩ := ok_of_map_eq_ok h
      simp at eq
      have := skipNumber_lt number
      simp only [List.length_cons] at this
      rw [← eq.2]; omega
    case _ => simp at h

theorem skipMark_lt {mark s r} (h : skipMark mark s = .ok r) : r.length < s.length := by
  have space := skipSpace_le s
  unfold skipMark at h
  split at h
  · simp at h
  · next c u front =>
    rw [front] at space
    simp only [List.length_cons] at space
    split at h <;> simp at h
    rw [← h]; omega

theorem skipKey_lt {s r} (h : skipKey s = .ok r) : r.length < s.length := by
  unfold skipKey at h
  split at h
  · simp at h
  · next quote =>
    have := skipMark_lt quote
    split at h
    · simp at h
    · next key =>
      have := skipString_lt key
      have := skipMark_lt h
      omega

theorem skipItemHead_le {f s r} (h : skipItemHead f s = .ok r) : r.length ≤ s.length := by
  cases f with
  | array => simp [skipItemHead] at h; simp [h]
  | object => exact Nat.le_of_lt (skipKey_lt h)

/-! ## The walk -/

/-- Walks to the end of the value that the frames on the stack enclose. -/
def skipFrom (stage : Stage) (stack : List Frame) (s : List Char) :
    Except ReadError (List Char) :=
  match stage, stack with
  | .value, stack =>
    match _h : skipFront s with
    | .error e => .error e
    | .ok (none, r) => skipFrom .ended stack r
    | .ok (some frame, r) => skipFrom .opened (frame :: stack) r
  | .opened, [] => .ok s
  | .opened, frame :: stack =>
    match _h : skipSpace s with
    | [] => .error .truncated
    | c :: r =>
      if c = frame.closing then skipFrom .ended stack r
      else
        match _h' : skipItemHead frame s with
        | .error e => .error e
        | .ok r => skipFrom .value (frame :: stack) r
  | .ended, [] => .ok s
  | .ended, frame :: stack =>
    match _h : skipSpace s with
    | [] => .error .truncated
    | c :: r =>
      if c = ',' then
        match _h' : skipItemHead frame r with
        | .error e => .error e
        | .ok r => skipFrom .value (frame :: stack) r
      else if c = frame.closing then skipFrom .ended stack r
      else .error .malformed
termination_by (s.length, stage.rank)
decreasing_by
  · exact Prod.Lex.left _ _ (skipFront_lt _h)
  · exact Prod.Lex.left _ _ (skipFront_lt _h)
  · have := skipSpace_le s
    rw [_h] at this
    exact Prod.Lex.left _ _ this
  · have := skipItemHead_le _h'
    rcases Nat.lt_or_eq_of_le this with less | same
    · exact Prod.Lex.left _ _ less
    · rw [same]; exact Prod.Lex.right _ (by decide)
  · have := skipSpace_le s
    have := skipItemHead_le _h'
    simp_all only [List.length_cons]
    exact Prod.Lex.left _ _ (by omega)
  · have := skipSpace_le s
    rw [_h] at this
    exact Prod.Lex.left _ _ this

/-- Skips one value. -/
def skipValue (s : List Char) : Except ReadError (List Char) := skipFrom .value [] s

theorem skipFrom_le {stage stack s r} (h : skipFrom stage stack s = .ok r) :
    r.length ≤ s.length := by
  fun_induction skipFrom stage stack s with
  | case1 => simp at h
  | case2 stack s t front ih => have := ih h; have := skipFront_lt front; omega
  | case3 stack s frame t front ih => have := ih h; have := skipFront_lt front; omega
  | case4 => simp at h; simp [h]
  | case5 => simp at h
  | case6 s frame stack t space ih =>
    have := ih h
    have := skipSpace_le s
    simp_all only [List.length_cons]
    omega
  | case7 => simp at h
  | case8 s frame stack c u space differs t head ih =>
    have := ih h
    have := skipItemHead_le head
    omega
  | case9 => simp at h; simp [h]
  | case10 => simp at h
  | case11 => simp at h
  | case12 s frame stack u t head space ih =>
    have := ih h
    have := skipSpace_le s
    have := skipItemHead_le head
    simp_all only [List.length_cons]
    omega
  | case13 s frame stack u space _ ih =>
    have := ih h
    have := skipSpace_le s
    simp_all only [List.length_cons]
    omega
  | case14 => simp at h

/-- Skipping a value takes at least one character. -/
theorem skipValue_lt {s r} (h : skipValue s = .ok r) : r.length < s.length := by
  unfold skipValue at h
  rw [skipFrom] at h
  split at h
  · simp at h
  · next front => have := skipFront_lt front; have := skipFrom_le h; omega
  · next front => have := skipFront_lt front; have := skipFrom_le h; omega

end DirWatch.Json
