import DirWatch.Glob.Syntax
import DirWatch.Text.Utf8

/-!
# Matching globs

A glob is matched against the bytes of a whole path, without regard to the case of ASCII letters.
Tokens are taken one after the other; between two of them stands the list of everything that may be
left of the path at that point, longest first and nothing twice, so that the work stays polynomial.
-/

namespace DirWatch.Glob

/-! ## Bytes -/

/-- A byte with ASCII capitals made small. -/
def lower (b : UInt8) : UInt8 := if 0x41 ≤ b ∧ b ≤ 0x5A then b + 0x20 else b

/-- The other case of an ASCII letter; every other byte is its own. -/
def otherCase (b : UInt8) : UInt8 :=
  if 0x41 ≤ b ∧ b ≤ 0x5A then b + 0x20
  else if 0x61 ≤ b ∧ b ≤ 0x7A then b - 0x20
  else b

/-- The bytes of a character. -/
def bytesOf (c : Char) : List UInt8 := Text.toBytes [c]

/-- The byte ranges of a range of characters: the bytes of its ends one by one, except that the last
byte of the first character and the first byte of the last one are the ends of a range. -/
def byteRanges (first last : Char) : List (UInt8 × UInt8) :=
  if first = last then (bytesOf first).map fun b => (b, b)
  else
    let single := fun b => (b, b)
    (bytesOf first).dropLast.map single ++
      [((bytesOf first).getLast?.getD 0, (bytesOf last).head?.getD 0)] ++
      (bytesOf last).tail.map single

/-- Tells whether a byte lies in one of the ranges. -/
def inRanges (ranges : List (UInt8 × UInt8)) (b : UInt8) : Bool :=
  ranges.any fun r => r.1 ≤ b && b ≤ r.2

/-- Tells whether a byte is one that a class takes. -/
def inClass (negated : Bool) (ranges : List (Char × Char)) (b : UInt8) : Bool :=
  let set := ranges.flatMap fun r => byteRanges r.1 r.2
  (inRanges set b || inRanges set (otherCase b)) != negated

/-! ## What may be left -/

/-- What may be left of a path, longest first. -/
abbrev Rests := List (List UInt8)

/-- A list and all that is left when parts are taken off its front. -/
def tailsOf : List UInt8 → Rests
  | [] => [[]]
  | b :: r => (b :: r) :: tailsOf r

/-- What follows each slash. -/
def afterSlashes : List UInt8 → Rests
  | [] => []
  | b :: r => if b = 0x2F then r :: afterSlashes r else afterSlashes r

namespace Rests

/-- Takes one byte that the test admits. -/
def byte (p : UInt8 → Bool) (s : Rests) : Rests :=
  s.filterMap fun
    | [] => none
    | b :: r => if p b then some r else none

/-- Takes any bytes: the longest rest contains all others. -/
def any : Rests → Rests
  | [] => []
  | longest :: _ => tailsOf longest

/-- Takes anything up to a slash and the slash. -/
def throughSlash : Rests → Rests
  | [] => []
  | longest :: _ => afterSlashes longest

/-- What may be left in either of two ways. -/
def merge : Rests → Rests → Rests
  | [], t => t
  | s, [] => s
  | a :: s, b :: t =>
    if b.length < a.length then a :: merge s (b :: t)
    else if a.length < b.length then b :: merge (a :: s) t
    else a :: merge s t

/-- Takes bytes one by one, in either case. -/
def bytes : List UInt8 → Rests → Rests
  | [], s => s
  | b :: r, s => bytes r (s.byte fun x => lower x == lower b)

end Rests

/-! ## Tokens -/

mutual

/-- Tells the groups that have nothing in any branch. -/
def Token.isVoid : Token → Bool
  | .choice branches => noBranch branches
  | _ => false

/-- Tells the branches that have nothing in them. -/
def noToken : List Token → Bool
  | [] => true
  | t :: ts => t.isVoid && noToken ts

/-- Tells whether all branches have nothing in them. -/
def noBranch : List (List Token) → Bool
  | [] => true
  | b :: bs => noToken b && noBranch bs

end

mutual

/-- What may be left after one token. -/
def Token.advance : Token → Rests → Rests
  | .literal c, s => s.bytes (bytesOf c)
  | .anyByte, s => s.byte fun _ => true
  | .anyText, s => s.any
  | .anyParents, s => s.merge s.throughSlash
  | .anyBelow, s => (s.byte (· == 0x2F)).any
  | .anyBetween, s =>
    let t := s.byte (· == 0x2F)
    t.merge t.throughSlash
  | .oneOf negated ranges, s => s.byte (inClass negated ranges)
  | .choice branches, s => if noBranch branches then s else advanceAny branches s

/-- What may be left after tokens in a row. -/
def advanceAll : List Token → Rests → Rests
  | [], s => s
  | t :: ts, s => advanceAll ts (t.advance s)

/-- What may be left after one of the branches; those with nothing in them are left out. -/
def advanceAny : List (List Token) → Rests → Rests
  | [], _ => []
  | b :: bs, s => if noToken b then advanceAny bs s else (advanceAll b s).merge (advanceAny bs s)

end

/-- Tells whether a glob matches all of a path. A glob of nothing but leading components matches
everything. -/
def isMatch (tokens : List Token) (path : List UInt8) : Bool :=
  match tokens with
  | [.anyParents] => true
  | tokens => List.any (advanceAll tokens [path]) List.isEmpty

end DirWatch.Glob
