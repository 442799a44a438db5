import DirWatch.Json.Token
import DirWatch.Text.Quoted

/-!
# Why JSON text cannot be read

There are three causes. The text may break the grammar, it may end too early, or it may hold a value
that is not the one asked for; only the last one has more to say (`Mismatch.message`).
-/

namespace DirWatch.Json

/-- How a value differs from the one asked for. -/
inductive Mismatch where
  /-- Another kind of value than the expected one. -/
  | wrongType (found : Token) (expected : String)
  /-- The right kind of value, but out of range. -/
  | wrongValue (found : Token) (expected : String)
  /-- A label that names no variant; the known ones are listed in order. -/
  | unknownVariant (label : String) (known : List String)
  /-- An object lacks a member that it must have. -/
  | missingMember (name : String)
  /-- An object names a member twice. -/
  | repeatedMember (name : String)
  /-- An array ends after `count` elements. -/
  | tooShort (count : Nat) (expected : String)
  /-- A text of the right kind that its own format refuses. -/
  | refused (reason : String)
  deriving DecidableEq

/-- Why a text cannot be read. -/
inductive ReadError where
  /-- The text breaks the grammar. -/
  | malformed
  /-- The text ends too early. -/
  | truncated
  /-- The text holds another value than the one asked for. -/
  | mismatch (m : Mismatch)
  deriving DecidableEq

/-- A token in the words of a message. -/
def Token.text : Token → String
  | null => "null"
  | bool b => "boolean `" ++ (if b then "true" else "false") ++ "`"
  | number (.nat n) => "integer `" ++ toString n ++ "`"
  | number (.negative n) => "integer `-" ++ toString n ++ "`"
  | number .float => "floating point"
  | string s => "string " ++ Text.quoted s
  | array => "sequence"
  | object => "map"

/-- A list of labels in the words of a message. -/
def alternatives : List String → String
  | [] => "there are no variants"
  | [a] => "expected `" ++ a ++ "`"
  | [a, b] => "expected `" ++ a ++ "` or `" ++ b ++ "`"
  | known => "expected one of " ++ ", ".intercalate (known.map fun a => "`" ++ a ++ "`")

def Mismatch.message : Mismatch → String
  | wrongType found expected => "invalid type: " ++ found.text ++ ", expected " ++ expected
  | wrongValue found expected => "invalid value: " ++ found.text ++ ", expected " ++ expected
  | unknownVariant label known => "unknown variant `" ++ label ++ "`, " ++ alternatives known
  | missingMember name => "missing field `" ++ name ++ "`"
  | repeatedMember name => "duplicate field `" ++ name ++ "`"
  | tooShort count expected => "invalid length " ++ toString count ++ ", expected " ++ expected
  | refused reason => reason

end DirWatch.Json
