import DirWatch.Change.Basic
import DirWatch.Change.FilterText
import DirWatch.Json.Shape
import DirWatch.Json.Value

/-!
# Changes in JSON

An action is its label, a filter is its text, and a change is an object of both its parts. Each has
a value that is written and a reader for it.
-/

namespace DirWatch

open Json

def Action.json (a : Action) : Value := .string a.label

def Action.reader : Reader Action := Reader.label (Action.all.map fun a => (a.label, a))

def Filter.json (f : Filter) : Value := .string f.toText

def Filter.reader : Reader Filter :=
  (Reader.string "a string value of `|` separated flags").check fun text =>
    match Filter.ofText text with
    | .ok f => .ok f
    | .error e => .error (.refused e.message)

def Change.json (c : Change) : Value :=
  .object [("action", c.action.json), ("path", .string c.path)]

/-- The parts of a change that have been read. -/
structure Change.Draft where
  action : Option Action
  path : Option String

/-- How a change is read: both parts are needed. -/
def Change.shape : Shape Change.Draft Change where
  name := "DecodedChange"
  members := [
    ⟨"action", fun d => d.action.isSome, Action.reader.map fun a d => { d with action := some a }⟩,
    ⟨"path", fun d => d.path.isSome,
      (Reader.string "a UTF-8 path string").map fun p d => { d with path := some p }⟩]
  blank := ⟨none, none⟩
  complete
    | ⟨some action, some path⟩ => .ok ⟨action, path⟩
    | ⟨none, _⟩ => .error "action"
    | ⟨some _, none⟩ => .error "path"

def Change.reader : Reader Change := Change.shape.reader

end DirWatch
