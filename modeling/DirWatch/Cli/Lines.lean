import DirWatch.Config.Basic
import DirWatch.Watch.Event

/-!
# Lines

How events and decoded changes are written. As text, a change is a line with the handle of its
watch, its action in a column of its own and its path as it is. As JSON, an event is a line of its
own, and decoded changes are one array.
-/

namespace DirWatch.Cli

/-- The width of the column that holds actions. -/
def actionWidth : Nat := 12

/-- A text, filled up with blanks at its right. -/
def padRight (width : Nat) (s : List Char) : List Char :=
  s ++ List.replicate (width - s.length) ' '

/-- What stands before the lines of a watch. -/
def lineStart (h : Handle) : List Char := h.display.toList ++ [' ', ' ']

def labelledLine (label text : String) : List Char :=
  padRight actionWidth label.toList ++ ' ' :: text.toList ++ ['\n']

def changeLine (c : Change) : List Char := labelledLine c.action.label c.path

/-- An event as text: its error, or a line for each of its changes. -/
def eventText (e : Event) : List Char :=
  match e.error? with
  | some err => lineStart e.handle ++ labelledLine "error" err.message
  | none => e.changes.flatMap fun c => lineStart e.handle ++ changeLine c

def writeEvent (format : OutputFormat) (e : Event) : List Char :=
  match format with
  | .json => e.json.compact ++ ['\n']
  | .text => eventText e

def writeChanges (format : OutputFormat) (changes : List Change) : List Char :=
  match format with
  | .json => (Json.Value.array (changes.map Change.json)).pretty ++ ['\n']
  | .text => changes.flatMap changeLine

/-- The line that tells that a watch has begun. -/
def watchingLine (h : Handle) (path : String) : String :=
  h.display ++ "  watching " ++ path

end DirWatch.Cli
