/-!
# Globs

The parts of a glob and the ways in which its text can be at fault.
-/

namespace DirWatch.Glob

/-- One part of a glob. -/
inductive Token where
  /-- The character itself, ASCII letters in either case. -/
  | literal (c : Char)
  /-- Any one byte. -/
  | anyByte
  /-- Any bytes, none included. -/
  | anyText
  /-- Nothing, a slash, or anything that ends in a slash. -/
  | anyParents
  /-- A slash and anything behind it. -/
  | anyBelow
  /-- A slash, or anything between two slashes with them. -/
  | anyBetween
  /-- One byte among the ranges, or one that is in none of them. -/
  | oneOf (negated : Bool) (ranges : List (Char × Char))
  /-- What one of the branches matches. -/
  | choice (branches : List (List Token))
  deriving Inhabited

/-- Why a text is no glob. -/
inductive SyntaxError where
  /-- A class has no closing bracket. -/
  | unclosedClass
  /-- A range in a class ends before it starts. -/
  | invalidRange (first last : Char)
  /-- A group is closed that was not opened. -/
  | unopenedGroup
  /-- A group is not closed. -/
  | unclosedGroup
  /-- A backslash has nothing behind it. -/
  | danglingEscape
  deriving DecidableEq

def SyntaxError.message : SyntaxError → String
  | unclosedClass => "unclosed character class; missing ']'"
  | invalidRange first last =>
    String.ofList ("invalid range; '".toList ++ first :: "' > '".toList ++ last :: ['\''])
  | unopenedGroup =>
    "unopened alternate group; missing '\x7b' (maybe escape '\x7d' with '[\x7d]'?)"
  | unclosedGroup =>
    "unclosed alternate group; missing '\x7d' (maybe escape '\x7b' with '[\x7b]'?)"
  | danglingEscape => "dangling '\\'"

end DirWatch.Glob
