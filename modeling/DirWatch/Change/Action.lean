/-!
# Actions

What a change record says happened to a path. Each action has a numeric code, which records store,
and a label, which output shows. `ofCode_code` and `ofLabel?_label` say that both lead back to the
action.
-/

namespace DirWatch

/-- The kind of a change. -/
inductive Action where
  | added
  | removed
  | modified
  /-- The path is the old name of a renamed entry. -/
  | renamedFrom
  /-- The path is the new name of a renamed entry. -/
  | renamedTo
  /-- The record carried a code that names no action. -/
  | unknown
  deriving DecidableEq, Inhabited

namespace Action

/-- Every action, in the order of declaration. -/
def all : List Action := [added, removed, modified, renamedFrom, renamedTo, unknown]

/-- The action that a stored code names; codes outside one to five name none. -/
def ofCode (code : UInt32) : Action :=
  if code = 1 then added
  else if code = 2 then removed
  else if code = 3 then modified
  else if code = 4 then renamedFrom
  else if code = 5 then renamedTo
  else unknown

/-- The code that a record stores for an action. -/
def code : Action → UInt32
  | added => 1
  | removed => 2
  | modified => 3
  | renamedFrom => 4
  | renamedTo => 5
  | unknown => 0

/-- The name of an action in output and in JSON text. -/
def label : Action → String
  | added => "added"
  | removed => "removed"
  | modified => "modified"
  | renamedFrom => "renamed_from"
  | renamedTo => "renamed_to"
  | unknown => "unknown"

def ofLabel? (label : String) : Option Action :=
  all.find? fun a => a.label == label

/-- Tells the two halves of a rename. -/
def isRename (a : Action) : Bool :=
  a = renamedFrom || a = renamedTo

@[simp] theorem ofCode_code (a : Action) : ofCode a.code = a := by
  cases a <;> decide

@[simp] theorem ofLabel?_label (a : Action) : ofLabel? a.label = some a := by
  cases a <;> decide

/-- Exactly the five listed codes name an action. -/
theorem ofCode_eq_unknown_iff (c : UInt32) :
    ofCode c = unknown ↔ c ≠ 1 ∧ c ≠ 2 ∧ c ≠ 3 ∧ c ≠ 4 ∧ c ≠ 5 := by
  unfold ofCode
  repeat' split
  all_goals simp_all

end Action

end DirWatch
