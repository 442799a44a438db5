/-!
# JSON tokens

What the front of a JSON text can be: a scalar, or the opening of an array or an object. Numbers
keep only what readers ask for: natural numbers and negative integers of 64 bits are told apart from
all others, which count as floating point.
-/

namespace DirWatch.Json

/-- A number as readers see it. -/
inductive Number where
  /-- An integer from zero to `2 ^ 64 - 1`, written without a sign. -/
  | nat (n : Nat)
  /-- The integer `-n`, for `n` from one to `2 ^ 63`. -/
  | negative (n : Nat)
  /-- Any other number; its value is not kept. -/
  | float
  deriving DecidableEq

/-- The front of a JSON text. -/
inductive Token where
  | null
  | bool (b : Bool)
  | number (n : Number)
  | string (s : String)
  /-- The bracket that opens an array. -/
  | array
  /-- The brace that opens an object. -/
  | object
  deriving DecidableEq

end DirWatch.Json
