import DirWatch.Text.Utf16

/-!
# UTF-8

Bytes as text. Strict reading (`ofBytes?`) takes well-formed bytes only; forgiving reading
(`ofBytesLossy`) replaces each longest part that could have begun a character, but did not go on as
one, by a single U+FFFD. Both walk the bytes with the same step, `firstChar`.
-/

namespace DirWatch.Text

def toBytes (s : List Char) : List UInt8 := s.flatMap String.utf8EncodeChar

/-- What stands at the front of a non-empty list of bytes: a character or a malformed part, and how
many bytes follow the first one in it. -/
inductive Front where
  | char (c : Char) (more : Nat)
  | malformed (more : Nat)

/-- Tells the bytes that continue a character. -/
def isContinuation (b : UInt8) : Bool := 0x80 ≤ b && b ≤ 0xBF

/-- The six low bits of a continuation byte. -/
def payload (b : UInt8) : Nat := b.toNat % 0x40

/-- Tells whether `second` may follow `first` in a character of three bytes. -/
def opensThree (first second : UInt8) : Bool :=
  (first == 0xE0 && 0xA0 ≤ second && second ≤ 0xBF) ||
    (0xE1 ≤ first && first ≤ 0xEC && isContinuation second) ||
    (first == 0xED && 0x80 ≤ second && second ≤ 0x9F) ||
    (0xEE ≤ first && first ≤ 0xEF && isContinuation second)

/-- Tells whether `second` may follow `first` in a character of four bytes. -/
def opensFour (first second : UInt8) : Bool :=
  (first == 0xF0 && 0x90 ≤ second && second ≤ 0xBF) ||
    (0xF1 ≤ first && first ≤ 0xF3 && isContinuation second) ||
    (first == 0xF4 && 0x80 ≤ second && second ≤ 0x8F)

/-- The front of the bytes `b :: r`. -/
def firstChar (b : UInt8) (r : List UInt8) : Front :=
  if b < 0x80 then .char (Char.ofNat b.toNat) 0
  else if 0xC2 ≤ b && b ≤ 0xDF then
    match r with
    | b1 :: _ =>
      if isContinuation b1 then .char (Char.ofNat (b.toNat % 0x20 * 0x40 + payload b1)) 1
      else .malformed 0
    | [] => .malformed 0
  else if 0xE0 ≤ b && b ≤ 0xEF then
    match r with
    | b1 :: r =>
      if opensThree b b1 then
        match r with
        | b2 :: _ =>
          if isContinuation b2 then
            .char (Char.ofNat (b.toNat % 0x10 * 0x1000 + payload b1 * 0x40 + payload b2)) 2
          else .malformed 1
        | [] => .malformed 1
      else .malformed 0
    | [] => .malformed 0
  else if 0xF0 ≤ b && b ≤ 0xF4 then
    match r with
    | b1 :: r =>
      if opensFour b b1 then
        match r with
        | b2 :: r =>
          if isContinuation b2 then
            match r with
            | b3 :: _ =>
              if isContinuation b3 then
                .char (Char.ofNat (b.toNat % 0x8 * 0x40000 + payload b1 * 0x1000 +
                  payload b2 * 0x40 + payload b3)) 3
              else .malformed 2
            | [] => .malformed 2
          else .malformed 1
        | [] => .malformed 1
      else .malformed 0
    | [] => .malformed 0
  else .malformed 0

/-- Reads well-formed bytes as text. -/
def ofBytes? : List UInt8 → Option (List Char)
  | [] => some []
  | b :: r =>
    match firstChar b r with
    | .char c more => (ofBytes? (r.drop more)).map (c :: ·)
    | .malformed _ => none
termination_by s => s.length
decreasing_by simp only [List.length_drop, List.length_cons]; omega

/-- Reads any bytes as text, with U+FFFD for each malformed part. -/
def ofBytesLossy : List UInt8 → List Char
  | [] => []
  | b :: r =>
    match firstChar b r with
    | .char c more => c :: ofBytesLossy (r.drop more)
    | .malformed more => replacement :: ofBytesLossy (r.drop more)
termination_by s => s.length
decreasing_by all_goals simp only [List.length_drop, List.length_cons]; omega

end DirWatch.Text
