import DirWatch.Cli.Arguments

/-!
# Usage

What the program says about itself.
-/

namespace DirWatch.Cli

def programName : String := "dirmon"

def programVersion : String := "0.1.0"

/-- The answer to `--version`, in general or behind a command. -/
def versionLine (of : Option CommandName) : String :=
  let name := match of with
    | none => programName
    | some c => programName ++ "-" ++ c.label
  name ++ " " ++ programVersion ++ "\n"

/-- How an option is listed. -/
def optionLine (s : Switch) : String :=
  let short := match s.letter? with
    | some c => "  -" ++ String.ofList [c] ++ ", --"
    | none => "      --"
  let value := match s.arity with
    | .alone => ""
    | .value | .anyValue => " <VALUE>"
  short ++ s.longName ++ value ++ "\n"

/-- The form of a command line. -/
def synopsis : Option CommandName → String
  | none => programName ++ " [OPTIONS] <COMMAND>"
  | some .watch => programName ++ " watch [OPTIONS] <PATH>..."
  | some .decode => programName ++ " decode [OPTIONS] <FILE>"

/-- The answer to a question for help. -/
def helpText (about : Option CommandName) : String :=
  let commands := match about with
    | none => "\nCommands:\n  watch   Watch directories and print changes\n" ++
        "  decode  Print the records of a buffer file\n"
    | some _ => ""
  "Usage: " ++ synopsis about ++ "\n" ++ commands ++ "\nOptions:\n" ++
    String.join ((Switch.available about).map optionLine)

end DirWatch.Cli
