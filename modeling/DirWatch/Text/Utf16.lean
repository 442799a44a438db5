/-!
# UTF-16

Text as UTF-16 code units. A surrogate without its partner reads as U+FFFD, so every list of units
is a text; `decodeUnits_encodeUnits` says that written text reads back unchanged.
-/

namespace DirWatch.Text

/-- Tells the first half of a surrogate pair. -/
def isHighSurrogate (u : UInt16) : Bool := 0xD800 ≤ u && u ≤ 0xDBFF

/-- Tells the second half of a surrogate pair. -/
def isLowSurrogate (u : UInt16) : Bool := 0xDC00 ≤ u && u ≤ 0xDFFF

/-- What a malformed part of an encoding reads as. -/
def replacement : Char := '\uFFFD'

def unitsOfChar (c : Char) : List UInt16 :=
  if c.toNat < 0x10000 then [UInt16.ofNat c.toNat]
  else
    let n := c.toNat - 0x10000
    [UInt16.ofNat (0xD800 + n / 0x400), UInt16.ofNat (0xDC00 + n % 0x400)]

def encodeUnits (s : List Char) : List UInt16 := s.flatMap unitsOfChar

/-- The character of a code unit that is not part of a pair. -/
def charOfUnit (u : UInt16) : Char :=
  if isHighSurrogate u || isLowSurrogate u then replacement else Char.ofNat u.toNat

def charOfPair (high low : UInt16) : Char :=
  Char.ofNat (0x10000 + (high.toNat - 0xD800) * 0x400 + (low.toNat - 0xDC00))

/-- Reads code units as text. -/
def decodeUnits : List UInt16 → List Char
  | [] => []
  | [u] => [charOfUnit u]
  | u :: v :: r =>
    if isHighSurrogate u && isLowSurrogate v then charOfPair u v :: decodeUnits r
    else charOfUnit u :: decodeUnits (v :: r)

/-! ## Written text reads back -/

/-- A character is a scalar value: it lies on either side of the surrogates. -/
theorem toNat_scalar (c : Char) :
    c.toNat < 0xD800 ∨ (0xDFFF < c.toNat ∧ c.toNat < 0x110000) := c.valid

theorem unitsOfChar_length_pos (c : Char) : 0 < (unitsOfChar c).length := by
  unfold unitsOfChar
  split <;> simp

/-- A unit of the basic plane is the character it came from. -/
theorem charOfUnit_ofNat (c : Char) (h : c.toNat < 0x10000) :
    isHighSurrogate (UInt16.ofNat c.toNat) = false ∧
      isLowSurrogate (UInt16.ofNat c.toNat) = false ∧
      charOfUnit (UInt16.ofNat c.toNat) = c := by
  have value : (UInt16.ofNat c.toNat).toNat = c.toNat := by
    simp [UInt16.toNat_ofNat']; omega
  have high : isHighSurrogate (UInt16.ofNat c.toNat) = false := by
    have := toNat_scalar c
    simp [isHighSurrogate, UInt16.le_iff_toNat_le, value]; omega
  have low : isLowSurrogate (UInt16.ofNat c.toNat) = false := by
    have := toNat_scalar c
    simp [isLowSurrogate, UInt16.le_iff_toNat_le, value]; omega
  refine ⟨high, low, ?_⟩
  simp [charOfUnit, high, low, value, Char.ofNat_toNat]

/-- The pair of a character beyond the basic plane is that character. -/
theorem charOfPair_ofNat (c : Char) (h : ¬ c.toNat < 0x10000) :
    let n := c.toNat - 0x10000
    isHighSurrogate (UInt16.ofNat (0xD800 + n / 0x400)) = true ∧
      isLowSurrogate (UInt16.ofNat (0xDC00 + n % 0x400)) = true ∧
      charOfPair (UInt16.ofNat (0xD800 + n / 0x400)) (UInt16.ofNat (0xDC00 + n % 0x400)) = c := by
  intro n
  have scalar := toNat_scalar c
  have bound : n < 0x100000 := by omega
  have high : (UInt16.ofNat (0xD800 + n / 0x400)).toNat = 0xD800 + n / 0x400 := by
    simp [UInt16.toNat_ofNat']; omega
  have low : (UInt16.ofNat (0xDC00 + n % 0x400)).toNat = 0xDC00 + n % 0x400 := by
    simp [UInt16.toNat_ofNat']; omega
  refine ⟨?_, ?_, ?_⟩
  · simp [isHighSurrogate, UInt16.le_iff_toNat_le]; omega
  · simp [isLowSurrogate, UInt16.le_iff_toNat_le]; omega
  · simp only [charOfPair, high, low]
    have : 0x10000 + (0xD800 + n / 0x400 - 0xD800) * 0x400 + (0xDC00 + n % 0x400 - 0xDC00)
        = c.toNat := by omega
    rw [this, Char.ofNat_toNat]

/-- Reading the units of a character and of what follows gives the character and the rest. -/
theorem decodeUnits_unitsOfChar (c : Char) (r : List UInt16) :
    decodeUnits (unitsOfChar c ++ r) = c :: decodeUnits r := by
  unfold unitsOfChar
  split
  · next h =>
    obtain ⟨high, low, single⟩ := charOfUnit_ofNat c h
    cases r with
    | nil => simp [decodeUnits, single]
    | cons v r => simp [decodeUnits, high, single]
  · next h =>
    obtain ⟨high, low, pair⟩ := charOfPair_ofNat c h
    simp only [List.cons_append, List.nil_append, decodeUnits, high, low, pair, Bool.and_self,
      if_true]

/-- Written text reads back unchanged. -/
theorem decodeUnits_encodeUnits (s : List Char) : decodeUnits (encodeUnits s) = s := by
  induction s with
  | nil => rfl
  | cons c r ih =>
    simp only [encodeUnits, List.flatMap_cons, decodeUnits_unitsOfChar] at ih ⊢
    rw [ih]

end DirWatch.Text
