import DirWatch.Json.ReadError

/-!
# JSON numbers

Reading a number tells integers of 64 bits from all others and refuses those beyond the range of
double precision. Skipping a number checks its grammar only. The two also differ at the end of a
text: a number that is read may be cut short there, a number that is skipped is malformed.

The range is that of a product of two doubles: the leading digits that fit into 64 bits, and the
power of ten that the others amount to, each rounded to 53 significant bits.
-/

namespace DirWatch.Json

/-- The largest integer of 64 bits. -/
def maxNat64 : Nat := UInt64.size - 1

/-- The digits at the front of a text, and what follows them. -/
def takeDigits (s : List Char) : List Char × List Char :=
  (s.takeWhile Char.isDigit, s.dropWhile Char.isDigit)

/-- The value of a decimal digit. -/
def digitValue (c : Char) : Nat := c.toNat - 48

/-- Extends `n` by decimal digits as long as the result fits into 64 bits. The second number counts
the digits that are left out from the first that does not fit. -/
def absorbDigits (n : Nat) : List Char → Nat × Nat
  | [] => (n, 0)
  | c :: r =>
    let m := 10 * n + digitValue c
    if maxNat64 < m then (n, r.length + 1) else absorbDigits m r

/-- Rounds to 53 significant bits, ties to the even neighbour. -/
def round53 (n : Nat) : Nat :=
  if n < 1 <<< 53 then n
  else
    let unit := 1 <<< (n.log2 - 52)
    let q := n / unit
    let twice := 2 * (n % unit)
    if unit < twice || (twice == unit && q % 2 == 1) then (q + 1) * unit else q * unit

/-- Tells whether `n * 10 ^ exponent` lies beyond double precision. -/
def outOfRange (n : Nat) (exponent : Int) : Bool :=
  match exponent with
  | .negSucc _ => false
  | .ofNat e =>
    if e ≤ 308 then 1 <<< 1024 ≤ round53 (round53 n * round53 (Nat.pow 10 e))
    else n != 0

/-- A number with a point, with an exponent or with too many digits. -/
def floatIn (n : Nat) (exponent : Int) (rest : List Char) :
    Except ReadError (Number × List Char) :=
  if outOfRange n exponent then .error .malformed else .ok (.float, rest)

/-- What is wrong when a digit must come and none does. -/
def noDigit : List Char → ReadError
  | [] => .truncated
  | _ :: _ => .malformed

/-- Reads the exponent of a number, if it has one. -/
def readExponent (n : Nat) (exponent : Int) (s : List Char) :
    Except ReadError (Number × List Char) :=
  match s with
  | [] => floatIn n exponent s
  | c :: r =>
    if c = 'e' ∨ c = 'E' then
      let (negative, r) := match r with
        | '-' :: r => (true, r)
        | '+' :: r => (false, r)
        | r => (false, r)
      match takeDigits r with
      | ([], rest) => .error (noDigit rest)
      | (digits, rest) =>
        let e : Int := digits.foldl (fun e d => 10 * e + digitValue d) 0
        floatIn n (if negative then exponent - e else exponent + e) rest
    else floatIn n exponent s

/-- The integer with these digits. -/
def integer (negative : Bool) (n : Nat) : Number :=
  if negative then
    if n = 0 ∨ 1 <<< 63 < n then .float else .negative n
  else .nat n

/-- Reads what follows the integer part: `n` holds its leading digits, `left` counts the others. -/
def readFraction (negative : Bool) (n left : Nat) (s : List Char) :
    Except ReadError (Number × List Char) :=
  match s with
  | '.' :: r =>
    match takeDigits r with
    | ([], rest) => .error (noDigit rest)
    | (digits, rest) =>
      let (m, out) := absorbDigits n digits
      readExponent m (left - (digits.length - out : Nat)) rest
  | c :: _ =>
    if c = 'e' ∨ c = 'E' ∨ left ≠ 0 then readExponent n left s
    else .ok (integer negative n, s)
  | [] => if left ≠ 0 then floatIn n left s else .ok (integer negative n, s)

def readNumber (s : List Char) : Except ReadError (Number × List Char) :=
  let (negative, s) := match s with
    | '-' :: r => (true, r)
    | r => (false, r)
  match s with
  | [] => .error .truncated
  | c :: r =>
    if c = '0' then
      match takeDigits r with
      | ([], rest) => readFraction negative 0 0 rest
      | _ => .error .malformed
    else if c.isDigit then
      let (digits, rest) := takeDigits r
      let (n, left) := absorbDigits (digitValue c) digits
      readFraction negative n left rest
    else .error .malformed

/-! ## Skipping -/

/-- Skips digits of which there must be one. -/
def skipDigits (s : List Char) : Except ReadError (List Char) :=
  match takeDigits s with
  | ([], _) => .error .malformed
  | (_, rest) => .ok rest

/-- Skips the exponent of a number, if it has one. -/
def skipExponent (s : List Char) : Except ReadError (List Char) :=
  match s with
  | c :: r =>
    if c = 'e' ∨ c = 'E' then
      match r with
      | '-' :: r => skipDigits r
      | '+' :: r => skipDigits r
      | r => skipDigits r
    else .ok s
  | [] => .ok s

/-- Skips what follows the integer part of a number. -/
def skipFraction (s : List Char) : Except ReadError (List Char) :=
  match s with
  | '.' :: r =>
    match skipDigits r with
    | .error e => .error e
    | .ok rest => skipExponent rest
  | s => skipExponent s

/-- The text after the sign of a number. -/
def dropMinus : List Char → List Char
  | '-' :: r => r
  | r => r

/-- Skips a number from the sign or the first digit on. -/
def skipNumber (s : List Char) : Except ReadError (List Char) :=
  match dropMinus s with
  | [] => .error .malformed
  | c :: r =>
    if c = '0' then
      match takeDigits r with
      | ([], rest) => skipFraction rest
      | _ => .error .malformed
    else if c.isDigit then skipFraction (takeDigits r).2
    else .error .malformed

/-! ## What is left is shorter -/

theorem takeDigits_le (s : List Char) : (takeDigits s).2.length ≤ s.length :=
  (List.dropWhile_suffix _).length_le

theorem floatIn_eq {n e s v r} (h : floatIn n e s = .ok (v, r)) : r = s := by
  unfold floatIn at h
  split at h <;> simp_all

theorem readExponent_le {n e s v r} (h : readExponent n e s = .ok (v, r)) :
    r.length ≤ s.length := by
  unfold readExponent at h
  split at h
  · exact (floatIn_eq h) ▸ Nat.le_refl _
  · next c t =>
    split at h
    · split at h
      next negative u signed =>
      have tail : u.length ≤ t.length := by
        split at signed <;> simp at signed <;> obtain ⟨_, rfl⟩ := signed <;> simp
      have digits := takeDigits_le u
      split at h
      · simp at h
      · next ds rest split_eq =>
        rw [split_eq] at digits
        have := floatIn_eq h
        simp only [List.length_cons] at digits ⊢
        subst this
        omega
    · exact (floatIn_eq h) ▸ Nat.le_refl _

theorem readFraction_le {neg n left s v r} (h : readFraction neg n left s = .ok (v, r)) :
    r.length ≤ s.length := by
  unfold readFraction at h
  split at h
  · next t =>
    have digits := takeDigits_le t
    split at h
    · simp at h
    · next ds rest split_eq =>
      rw [split_eq] at digits
      have := readExponent_le h
      simp only [List.length_cons] at digits ⊢
      omega
  · split at h
    · exact readExponent_le h
    · simp at h; simp [h]
  · split at h
    · exact (floatIn_eq h) ▸ Nat.le_refl _
    · simp at h; simp [h]

/-- Reading a number takes at least one character. -/
theorem readNumber_lt {s v r} (h : readNumber s = .ok (v, r)) : r.length < s.length := by
  unfold readNumber at h
  split at h
  next negative t signed =>
  have tail : t.length ≤ s.length := by
    split at signed <;> simp at signed <;> obtain ⟨_, rfl⟩ := signed <;> simp
  split at h
  · simp at h
  · next c u =>
    have digits := takeDigits_le u
    simp only [List.length_cons] at tail
    split at h
    · split at h
      · next rest split_eq =>
        rw [split_eq] at digits
        have := readFraction_le h
        simp only at digits
        omega
      · simp at h
    · split at h
      · have := readFraction_le h
        simp only [takeDigits] at digits
        omega
      · simp at h

theorem skipDigits_le {s r} (h : skipDigits s = .ok r) : r.length ≤ s.length := by
  have digits := takeDigits_le s
  unfold skipDigits at h
  split at h
  · simp at h
  · next split_eq => rw [split_eq] at digits; simp at h; simpa [h] using digits

theorem skipExponent_le {s r} (h : skipExponent s = .ok r) : r.length ≤ s.length := by
  unfold skipExponent at h
  split at h
  · split at h
    · split at h <;> have := skipDigits_le h <;> simp_all <;> omega
    · simp at h; simp [h]
  · simp at h; simp [h]

theorem skipFraction_le {s r} (h : skipFraction s = .ok r) : r.length ≤ s.length := by
  unfold skipFraction at h
  split at h
  · split at h
    · simp at h
    · next digits =>
      have := skipDigits_le digits
      have := skipExponent_le h
      simp only [List.length_cons]
      omega
  · exact skipExponent_le h

theorem dropMinus_le (s : List Char) : (dropMinus s).length ≤ s.length := by
  unfold dropMinus
  split <;> simp

/-- Skipping a number takes at least one character. -/
theorem skipNumber_lt {s r} (h : skipNumber s = .ok r) : r.length < s.length := by
  have tail := dropMinus_le s
  unfold skipNumber at h
  split at h
  · simp at h
  · next c u unsigned =>
    have digits := takeDigits_le u
    rw [unsigned] at tail
    simp only [List.length_cons] at tail
    split at h
    · split at h
      · next rest split_eq =>
        rw [split_eq] at digits
        have := skipFraction_le h
        simp only at digits
        omega
      · simp at h
    · split at h
      · have := skipFraction_le h
        omega
      · simp at h

end DirWatch.Json
