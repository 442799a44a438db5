import DirWatch.Text.Blank

/-!
# Filters

A filter is the mask of change classes that a watch asks for. Eight bits have names; the others may
be set and are kept, but select nothing. A filter may be put together from class names in a loose
spelling (`Filter.ofNames`): blanks around a name, the case of ASCII letters and `-` for `_` do not
matter.
-/

namespace DirWatch

/-- A mask of change classes. -/
structure Filter where
  bits : UInt32
  deriving DecidableEq, Inhabited

namespace Filter

/-- The mask that selects nothing. -/
def empty : Filter := ⟨0⟩

/-- Files come, go or change their names. -/
def fileName : Filter := ⟨0x1⟩

/-- Directories come, go or change their names. -/
def dirName : Filter := ⟨0x2⟩

def attributes : Filter := ⟨0x4⟩

def size : Filter := ⟨0x8⟩

/-- Times of the last write change. -/
def lastWrite : Filter := ⟨0x10⟩

/-- Times of the last access change. -/
def lastAccess : Filter := ⟨0x20⟩

def creation : Filter := ⟨0x40⟩

/-- Owners or permissions change. -/
def security : Filter := ⟨0x100⟩

/-- The named classes, in the order in which text lists them. -/
def classes : List (String × Filter) :=
  [("FILE_NAME", fileName), ("DIR_NAME", dirName), ("ATTRIBUTES", attributes), ("SIZE", size),
    ("LAST_WRITE", lastWrite), ("LAST_ACCESS", lastAccess), ("CREATION", creation),
    ("SECURITY", security)]

/-- The classes that either mask selects. -/
def union (f g : Filter) : Filter := ⟨f.bits ||| g.bits⟩

/-- The classes that both masks select. -/
def inter (f g : Filter) : Filter := ⟨f.bits &&& g.bits⟩

/-- The classes of a mask without those of another. -/
def diff (f g : Filter) : Filter := ⟨f.bits &&& ~~~ g.bits⟩

/-- Tells whether two masks have a bit in common. -/
def intersects (f g : Filter) : Bool := (f.inter g).bits != 0

def contains (f g : Filter) : Bool := f.inter g = g

def isEmpty (f : Filter) : Bool := f.bits == 0

def everyClass : Filter := classes.foldl (fun f c => f.union c.2) empty

/-- Tells whether all named classes are selected. -/
def isAll (f : Filter) : Bool := f.contains everyClass

def names : Filter := fileName.union dirName

/-- The mask of a watch that asks for nothing in particular. -/
def standard : Filter := names.union lastWrite

/-- The class with exactly this name. -/
def ofName? (name : String) : Option Filter :=
  (classes.find? fun c => c.1 == name).map (·.2)

theorem everyClass_bits : everyClass.bits = 0x17f := by decide

theorem standard_bits : standard.bits = 0x13 := by decide

/-! ## Loose spelling -/

/-- A class name in its listed spelling: without blanks at its ends, in upper case and with `_`. -/
def normalName (name : String) : String :=
  String.ofList ((Text.trim name.toList).map fun c => if c = '-' then '_' else c.toUpper)

/-- The class that a name in loose spelling means. -/
def ofLooseName? (name : String) : Option Filter := ofName? (normalName name)

/-- The union of the classes that the names mean, or the first name that means none, as it was
written. -/
def ofNames : List String → Except String Filter
  | [] => .ok empty
  | name :: rest =>
    match ofLooseName? name with
    | none => .error name
    | some f => (ofNames rest).map f.union

end Filter

end DirWatch
