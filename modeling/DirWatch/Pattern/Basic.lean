import DirWatch.Error.Watch
import DirWatch.Glob.Matcher
import DirWatch.Glob.Parser

/-!
# Patterns

A pattern is a glob with a sign: `-` excludes the paths that it matches, `+` or no sign includes
them. A watch has a list of patterns, and the first one that matches a path decides. With no
patterns every path is reported; with patterns, a path that none matches is not.
-/

namespace DirWatch

/-- Whether a pattern admits or rejects the paths that it matches. -/
inductive PatternKind where
  | including
  | excluding
  deriving DecidableEq

/-- The result of testing a path. -/
inductive MatchOutcome where
  | noMatch
  | included
  | excluded
  deriving DecidableEq

/-- What a match of a pattern of each kind means. -/
def PatternKind.outcome : PatternKind → MatchOutcome
  | including => .included
  | excluding => .excluded

/-- A pattern ready for use, with the text that it was read from. -/
structure Pattern where
  kind : PatternKind
  source : String
  tokens : List Glob.Token

namespace Pattern

/-- The kind that a text's sign gives, and the glob behind the sign. -/
def splitSign (text : List Char) : PatternKind × List Char :=
  match text with
  | '-' :: glob => (.excluding, glob)
  | '+' :: glob => (.including, glob)
  | glob => (.including, glob)

def parse (text : String) : Except WatchError Pattern :=
  let (kind, glob) := splitSign text.toList
  match Glob.readFrom .start glob with
  | .error e => .error (.invalidPattern text e.message)
  | .ok tokens => .ok ⟨kind, text, tokens⟩

def test (p : Pattern) (path : String) : MatchOutcome :=
  if Glob.isMatch p.tokens (Text.toBytes path.toList) then p.kind.outcome else .noMatch

end Pattern

/-- Tests a path against the text of a pattern. -/
def matchPath (path pattern : String) : Except WatchError MatchOutcome :=
  (Pattern.parse pattern).map fun p => p.test path

/-- The patterns of a watch, the deciding ones first. -/
abbrev Patterns := List Pattern

namespace Patterns

/-- The most patterns that a watch takes. -/
def limit : Nat := 64

/-- Reads patterns; the first one at fault is reported. -/
def parse : List String → Except WatchError Patterns
  | [] => .ok []
  | text :: rest =>
    match Pattern.parse text with
    | .error e => .error e
    | .ok p => (parse rest).map (p :: ·)

/-- What the first pattern that matches says. -/
def firstMatch (path : String) : Patterns → MatchOutcome
  | [] => .noMatch
  | p :: ps =>
    match p.test path with
    | .noMatch => firstMatch path ps
    | outcome => outcome

/-- What the patterns say of a path; without patterns every path is included. -/
def classify (ps : Patterns) (path : String) : MatchOutcome :=
  if ps.isEmpty then .included else firstMatch path ps

/-- Tells whether a change of a path is reported. -/
def admits (ps : Patterns) (path : String) : Bool := ps.classify path = .included

end Patterns

end DirWatch
