import DirWatch.Json.StringLiteral

/-!
# JSON values and their text

A value to be written, and its two written forms: on one line without blanks (`compact`), and with
one item a line, indented by two blanks for each bracket around it (`pretty`).
-/

namespace DirWatch.Json

/-- A JSON value; the members of an object keep their order. -/
inductive Value where
  | null
  | bool (b : Bool)
  | number (n : Int)
  | string (s : String)
  | array (items : List Value)
  | object (members : List (String × Value))

/-- A natural number as a value. -/
def Value.nat (n : Nat) : Value := .number n

/-- The decimal digits of an integer, with a sign if it is negative. -/
def integerText : Int → List Char
  | .ofNat n => Nat.toDigits 10 n
  | .negSucc n => '-' :: Nat.toDigits 10 (n + 1)

/-- The text of a value with no parts. -/
def wordText (b : Bool) : List Char := if b then "true".toList else "false".toList

/-! ## One line -/

mutual

/-- A value on one line. -/
def Value.compact : Value → List Char
  | .null => "null".toList
  | .bool b => wordText b
  | .number n => integerText n
  | .string s => writeString s.toList
  | .array items => '[' :: compactItems items ++ [']']
  | .object members => '\x7b' :: compactMembers members ++ ['\x7d']

/-- Items with commas between them. -/
def compactItems : List Value → List Char
  | [] => []
  | [v] => v.compact
  | v :: w :: rest => v.compact ++ ',' :: compactItems (w :: rest)

/-- Members with commas between them. -/
def compactMembers : List (String × Value) → List Char
  | [] => []
  | [(k, v)] => writeString k.toList ++ ':' :: v.compact
  | (k, v) :: m :: rest =>
    writeString k.toList ++ ':' :: v.compact ++ ',' :: compactMembers (m :: rest)

end

/-! ## One item a line -/

/-- The start of a line inside `depth` brackets. -/
def newLine (depth : Nat) : List Char := '\n' :: List.replicate (2 * depth) ' '

mutual

/-- A value with one item a line, inside `depth` brackets. -/
def Value.prettyAt (depth : Nat) : Value → List Char
  | .array [] => "[]".toList
  | .array (v :: rest) =>
    '[' :: newLine (depth + 1) ++ v.prettyAt (depth + 1) ++ prettyItems (depth + 1) rest ++
      newLine depth ++ [']']
  | .object [] => ['\x7b', '\x7d']
  | .object ((k, v) :: rest) =>
    '\x7b' :: newLine (depth + 1) ++ writeString k.toList ++ ": ".toList ++
      v.prettyAt (depth + 1) ++ prettyMembers (depth + 1) rest ++ newLine depth ++ ['\x7d']
  | .null => "null".toList
  | .bool b => wordText b
  | .number n => integerText n
  | .string s => writeString s.toList

/-- The items after the first, each with its comma and on its own line. -/
def prettyItems (depth : Nat) : List Value → List Char
  | [] => []
  | v :: rest => ',' :: newLine depth ++ v.prettyAt depth ++ prettyItems depth rest

/-- The members after the first, each with its comma and on its own line. -/
def prettyMembers (depth : Nat) : List (String × Value) → List Char
  | [] => []
  | (k, v) :: rest =>
    ',' :: newLine depth ++ writeString k.toList ++ ": ".toList ++ v.prettyAt depth ++
      prettyMembers depth rest

end

/-- A value with one item a line. -/
def Value.pretty (v : Value) : List Char := v.prettyAt 0

end DirWatch.Json
