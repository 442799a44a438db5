import DirWatch.Change.Filter
import DirWatch.Text.Hex
import DirWatch.Text.Pieces

/-!
# Filters as text

A filter is written as the names of its classes, in the listed order and with ` | ` between them,
and one hexadecimal item for the bits that have no name. Reading takes such items in any order,
ignores blanks around them, and takes blank text for the empty mask.
-/

namespace DirWatch.Filter

/-- Why a text is no filter. -/
inductive TextError where
  /-- Nothing stands between two separators. -/
  | emptyItem
  /-- The digits after `0x` are not those of a 32-bit number. -/
  | badHex (digits : String)
  /-- No class has this name. -/
  | unknownName (name : String)
  deriving DecidableEq

def TextError.message : TextError → String
  | emptyItem => "encountered empty flag"
  | badHex digits => "invalid hex flag `" ++ digits ++ "`"
  | unknownName name => "unrecognized named flag `" ++ name ++ "`"

/-! ## Writing -/

def items (f : Filter) : List String :=
  let named := classes.filter fun c => f.contains c.2
  let rest := f.diff everyClass
  named.map (·.1) ++
    if rest.isEmpty then [] else ["0x" ++ String.ofList (Text.hexText rest.bits.toNat)]

def toText (f : Filter) : String :=
  String.ofList (Text.glue " | ".toList (f.items.map (·.toList)))

/-! ## Reading -/

/-- The 32-bit number of hexadecimal digits, with at most one `+` before them. -/
def hexBits? (digits : List Char) : Option UInt32 :=
  let digits := match digits with
    | '+' :: r => r
    | r => r
  if digits.isEmpty then none
  else
    match Text.hexValue? digits with
    | some n => if n < UInt32.size then some (UInt32.ofNat n) else none
    | none => none

/-- The filter that one item names; blanks around it are gone. -/
def ofItem (item : List Char) : Except TextError Filter :=
  match item with
  | [] => .error .emptyItem
  | '0' :: 'x' :: digits =>
    match hexBits? digits with
    | some bits => .ok ⟨bits⟩
    | none => .error (.badHex (String.ofList digits))
  | item =>
    match ofName? (String.ofList item) with
    | some f => .ok f
    | none => .error (.unknownName (String.ofList item))

/-- The union of the items, or the error of the first one that is at fault. -/
def ofItems : List (List Char) → Except TextError Filter
  | [] => .ok empty
  | item :: rest =>
    match ofItem (Text.trim item) with
    | .error e => .error e
    | .ok f => (ofItems rest).map f.union

/-- Reads a filter's text. -/
def ofText (text : String) : Except TextError Filter :=
  if Text.trim text.toList = [] then .ok empty
  else ofItems (Text.pieces '|' text.toList)

end DirWatch.Filter
