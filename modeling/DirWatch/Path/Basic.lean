import DirWatch.Text.Pieces
import DirWatch.Text.Utf8

/-!
# Paths

A path is a list of bytes with `/` between its parts. Its components leave out empty parts and
single dots, except for a dot that a relative path starts with; two dots stay. A path lies below
another if the other's components come first, and its name there is what follows them.
-/

namespace DirWatch

/-- A path as the system spells it. -/
abbrev RawPath := List UInt8

namespace RawPath

/-- The byte between the parts of a path. -/
def slash : UInt8 := 0x2F

/-- The part that stays where it is. -/
def dot : List UInt8 := [0x2E]

/-- The part that leads to the directory above. -/
def dotDot : List UInt8 := [0x2E, 0x2E]

/-- The path that a text spells. -/
def ofString (s : String) : RawPath := Text.toBytes s.toList

/-- A path as text, with U+FFFD for what is no text. -/
def display (p : RawPath) : String := String.ofList (Text.ofBytesLossy p)

/-- Tells the paths that start from the root of the file system. -/
def isAbsolute (p : RawPath) : Bool := p.head? == some slash

/-- A path taken from a directory: absolute paths stay as they are. -/
def joinTo (directory p : RawPath) : RawPath :=
  if isAbsolute p then p else directory ++ slash :: p

/-- One step of a path. -/
inductive Component where
  /-- The root of the file system. -/
  | root
  /-- The dot that a relative path starts with. -/
  | here
  /-- The directory above. -/
  | parent
  | name (bytes : List UInt8)
  deriving DecidableEq

/-- How a component is spelled. -/
def Component.bytes : Component → List UInt8
  | root => [slash]
  | here => dot
  | parent => dotDot
  | name bytes => bytes

/-- The component that a part stands for, if it stands for any. -/
def componentOfPart? (part : List UInt8) : Option Component :=
  if part = [] ∨ part = dot then none
  else if part = dotDot then some .parent
  else some (.name part)

def components (p : RawPath) : List Component :=
  let parts := Text.pieces slash p
  let rest := parts.filterMap componentOfPart?
  if isAbsolute p then .root :: rest
  else if parts.head? = some dot then .here :: rest
  else rest

/-- The last component, if it is a name. -/
def fileName? (p : RawPath) : Option (List UInt8) :=
  match (components p).getLast? with
  | some (.name bytes) => some bytes
  | _ => none

/-- What remains of a list behind a list that it starts with. -/
def afterPrefix? [DecidableEq α] : (start whole : List α) → Option (List α)
  | [], whole => some whole
  | _ :: _, [] => none
  | a :: start, b :: whole => if a = b then afterPrefix? start whole else none

/-- The components of `path` behind those of `root`. -/
def below? (root path : RawPath) : Option (List Component) :=
  afterPrefix? (components root) (components path)

/-- The name of a path below `root`: the components behind the root's, as text and with `/` between
them. The root itself and what is not below it have no name. -/
def relativeName? (root path : RawPath) : Option String :=
  match below? root path with
  | none | some [] => none
  | some below =>
    some (String.ofList (Text.glue ['/'] (below.map fun c => Text.ofBytesLossy c.bytes)))

theorem afterPrefix?_eq_some_iff [DecidableEq α] {start whole rest : List α} :
    afterPrefix? start whole = some rest ↔ whole = start ++ rest := by
  induction start generalizing whole with
  | nil => simp [afterPrefix?, eq_comm]
  | cons a start ih =>
    cases whole with
    | nil => simp [afterPrefix?]
    | cons b whole =>
      by_cases h : a = b
      · simp [afterPrefix?, h, ih]
      · simp [afterPrefix?, h, Ne.symm h]

end RawPath

end DirWatch
