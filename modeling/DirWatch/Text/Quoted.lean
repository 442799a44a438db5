import DirWatch.Text.Hex
import DirWatch.Text.Printable

/-!
# Quoted text

A text between double quotes, with a backslash before quotes and backslashes, short escapes for the
common controls, and the code point of every other character that has no picture of its own.
-/

namespace DirWatch.Text

/-- One character inside quotes. -/
def quoteChar (c : Char) : List Char :=
  match c with
  | '"' => ['\\', '"']
  | '\\' => ['\\', '\\']
  | '\n' => ['\\', 'n']
  | '\r' => ['\\', 'r']
  | '\t' => ['\\', 't']
  | '\x00' => ['\\', '0']
  | c =>
    if isPrintable c then [c]
    else ['\\', 'u', '\x7b'] ++ hexText c.toNat ++ ['\x7d']

/-- A text in double quotes. -/
def quoted (s : String) : String :=
  String.ofList ('"' :: s.toList.flatMap quoteChar ++ ['"'])

example : quoted "say \"日\"\n" = "\"say \\\"日\\\"\\n\"" := by decide +kernel

end DirWatch.Text
