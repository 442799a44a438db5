import DirWatch.Json.ReadError
import DirWatch.Text.Utf16
import DirWatch.Text.Utf8

/-!
# JSON strings

The text between the quotes of a JSON string: reading it, skipping it and writing it. Reading
refuses a surrogate escape without its partner; skipping lets it pass. Neither lets a control
character stand for itself.
-/

namespace DirWatch.Json

/-! ## Reading -/

/-- The number of a `\u` escape from its four digits on. Four bytes are looked at: a text that ends
before them is cut short, any other text is malformed. -/
def readUnit (s : List Char) : Except ReadError (Nat × List Char) :=
  match s with
  | a :: b :: c :: d :: r =>
    match Text.hexValue? [a, b, c, d] with
    | some n => .ok (n, r)
    | none => .error .malformed
  | s => if (Text.toBytes s).length < 4 then .error .truncated else .error .malformed

/-- The character of a `\u` escape; the second half of a surrogate pair is an escape of its own. -/
def readUnicode (s : List Char) : Except ReadError (Char × List Char) :=
  match readUnit s with
  | .error e => .error e
  | .ok (n, r) =>
    if Text.isLowSurrogate (UInt16.ofNat n) then .error .malformed
    else if Text.isHighSurrogate (UInt16.ofNat n) then
      match r with
      | [] => .error .truncated
      | ['\\'] => .error .truncated
      | '\\' :: 'u' :: r =>
        match readUnit r with
        | .error e => .error e
        | .ok (m, r) =>
          if Text.isLowSurrogate (UInt16.ofNat m) then
            .ok (Text.charOfPair (UInt16.ofNat n) (UInt16.ofNat m), r)
          else .error .malformed
      | _ => .error .malformed
    else .ok (Char.ofNat n, r)

/-- The character of an escape with one letter. -/
def shortEscape? (c : Char) : Option Char :=
  match c with
  | '"' => some '"'
  | '\\' => some '\\'
  | '/' => some '/'
  | 'b' => some '\x08'
  | 'f' => some '\x0c'
  | 'n' => some '\n'
  | 'r' => some '\r'
  | 't' => some '\t'
  | _ => none

/-- The character of an escape, from the character after the backslash on. -/
def readEscape (s : List Char) : Except ReadError (Char × List Char) :=
  match s with
  | [] => .error .truncated
  | 'u' :: r => readUnicode r
  | c :: r =>
    match shortEscape? c with
    | some e => .ok (e, r)
    | none => .error .malformed

theorem readUnit_lt {s n r} (h : readUnit s = .ok (n, r)) : r.length < s.length := by
  unfold readUnit at h
  split at h
  · split at h
    · simp at h; simp [← h.2]; omega
    · simp at h
  · split at h <;> simp at h

theorem readUnicode_lt {s c r} (h : readUnicode s = .ok (c, r)) : r.length < s.length := by
  unfold readUnicode at h
  split at h
  · simp at h
  · next n t first =>
    have := readUnit_lt first
    split at h
    · simp at h
    · split at h
      · split at h <;> try simp at h
        next u =>
        split at h
        · simp at h
        · next m v second =>
          have := readUnit_lt second
          split at h
          · simp at h; simp only [List.length_cons] at *; rw [← h.2]; omega
          · simp at h
      · simp at h; rw [← h.2]; assumption

theorem readEscape_lt {s c r} (h : readEscape s = .ok (c, r)) : r.length < s.length := by
  unfold readEscape at h
  split at h
  · simp at h
  · have := readUnicode_lt h
    simp only [List.length_cons]
    omega
  · split at h
    · simp at h; simp [h]
    · simp at h

def readString (s : List Char) : Except ReadError (List Char × List Char) :=
  match s with
  | [] => .error .truncated
  | c :: r =>
    if c = '"' then .ok ([], r)
    else if c = '\\' then
      match _h : readEscape r with
      | .error e => .error e
      | .ok (e, rest) =>
        match readString rest with
        | .error e => .error e
        | .ok (t, rest) => .ok (e :: t, rest)
    else if c.toNat < 0x20 then .error .malformed
    else
      match readString r with
      | .error e => .error e
      | .ok (t, rest) => .ok (c :: t, rest)
termination_by s.length
decreasing_by
  · have := readEscape_lt _h; simp only [List.length_cons]; omega
  · simp

/-- Reading a string takes at least its closing quote. -/
theorem readString_lt {s t r} (h : readString s = .ok (t, r)) : r.length < s.length := by
  fun_induction readString s generalizing t r with
  | case1 => simp at h
  | case2 => simp at h; simp [h]
  | case3 => simp at h
  | case4 => simp at h
  | case5 u e rest escape t' rest' inner _ ih =>
    have := readEscape_lt escape
    have := ih inner
    simp at h
    simp only [List.length_cons, ← h.2]
    omega
  | case6 => simp at h
  | case7 => simp at h
  | case8 c u _ _ _ t' rest' inner ih =>
    have := ih inner
    simp at h
    simp only [List.length_cons, ← h.2]
    omega

/-! ## Skipping -/

/-- Skips an escape from the character after the backslash on; any four hexadecimal digits will
do. -/
def skipEscape (s : List Char) : Except ReadError (List Char) :=
  match s with
  | [] => .error .truncated
  | 'u' :: r =>
    match readUnit r with
    | .error e => .error e
    | .ok (_, r) => .ok r
  | c :: r => if (shortEscape? c).isSome then .ok r else .error .malformed

theorem skipEscape_lt {s r} (h : skipEscape s = .ok r) : r.length < s.length := by
  unfold skipEscape at h
  split at h
  · simp at h
  · split at h
    · simp at h
    · next unit =>
      have := readUnit_lt unit
      simp at h
      simp only [List.length_cons, ← h]
      omega
  · split at h <;> simp at h
    simp [h]

/-- Skips a string from the character after its opening quote on. -/
def skipString (s : List Char) : Except ReadError (List Char) :=
  match s with
  | [] => .error .truncated
  | c :: r =>
    if c = '"' then .ok r
    else if c = '\\' then
      match _h : skipEscape r with
      | .error e => .error e
      | .ok rest => skipString rest
    else if c.toNat < 0x20 then .error .malformed
    else skipString r
termination_by s.length
decreasing_by
  · have := skipEscape_lt _h; simp only [List.length_cons]; omega
  · simp

/-- Skipping a string takes at least its closing quote. -/
theorem skipString_lt {s r} (h : skipString s = .ok r) : r.length < s.length := by
  fun_induction skipString s generalizing r with
  | case1 => simp at h
  | case2 => simp at h; simp [h]
  | case3 => simp at h
  | case4 u rest escape _ ih =>
    have := skipEscape_lt escape
    have := ih h
    simp only [List.length_cons]
    omega
  | case5 => simp at h
  | case6 c u _ _ _ ih =>
    have := ih h
    simp only [List.length_cons]
    omega

/-! ## Writing -/

/-- One character inside the quotes of a string: quotes, backslashes and controls are escaped. -/
def escapeChar (c : Char) : List Char :=
  match c with
  | '"' => ['\\', '"']
  | '\\' => ['\\', '\\']
  | '\x08' => ['\\', 'b']
  | '\x0c' => ['\\', 'f']
  | '\n' => ['\\', 'n']
  | '\r' => ['\\', 'r']
  | '\t' => ['\\', 't']
  | c =>
    if c.toNat < 0x20 then
      ['\\', 'u', '0', '0'] ++ (if c.toNat < 0x10 then ['0'] else []) ++ Text.hexText c.toNat
    else [c]

/-- A string with its quotes. -/
def writeString (s : List Char) : List Char := '"' :: s.flatMap escapeChar ++ ['"']

end DirWatch.Json
