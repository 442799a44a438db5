import DirWatch.Error.System
import DirWatch.Json.Value

/-!
# Input and output errors

An error is either one that the operating system numbers, whose kind and text follow from its
number, or one that the library raises itself, with a kind and a text of its own.
-/

namespace DirWatch

/-- An error of input or output. -/
inductive IoError where
  /-- The operating system's error with this number. -/
  | system (code : Int)
  /-- An error that the library raises. -/
  | raised (kind : IoKind) (message : String)
  deriving DecidableEq, Inhabited

namespace IoError

/-- What went wrong, broadly. -/
def kind : IoError → IoKind
  | system code => SystemError.kind code
  | raised kind _ => kind

/-- The operating system's number, if it has one. -/
def code? : IoError → Option Int
  | system code => some code
  | raised _ _ => none

def message : IoError → String
  | system code => SystemError.text code ++ " (os error " ++ toString code ++ ")"
  | raised _ message => message

def json (e : IoError) : Json.Value :=
  .object [("kind", .string e.kind.label),
    ("code", match e.code? with
      | some n => .number n
      | none => .null),
    ("message", .string e.message)]

/-- There is no such file. -/
def noEntry : IoError := system 2

/-- A part of a path that must be a directory is none. -/
def noDirectory : IoError := system 20

/-- A directory where a file must be. -/
def directory : IoError := system 21

/-- Something stands where nothing may. -/
def present : IoError := system 17

/-- A path or a part of it has too many bytes. -/
def nameTooLong : IoError := system 36

/-- The links of a path lead in a circle. -/
def linkLoop : IoError := system 40

end IoError

end DirWatch
