/-!
# Decimal numbers

Reading a natural number from its decimal digits, with at most one `+` before them.
-/

namespace DirWatch.Text

/-- A number with one more decimal digit at its right, if the character is one. -/
def appendDigit? (n : Nat) (c : Char) : Option Nat :=
  if c.isDigit then some (10 * n + (c.toNat - 48)) else none

/-- The number that a text of decimal digits stands for, or nothing if another character is among
them. -/
def decimalValue? (s : List Char) : Option Nat := s.foldlM appendDigit? 0

/-- The number of 64 bits that a text spells. -/
def nat64? (s : List Char) : Option UInt64 :=
  let digits := match s with
    | '+' :: r => r
    | r => r
  if digits.isEmpty then none
  else
    match decimalValue? digits with
    | some n => if n < UInt64.size then some (UInt64.ofNat n) else none
    | none => none

end DirWatch.Text
