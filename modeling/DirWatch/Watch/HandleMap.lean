import DirWatch.Watch.Handle

/-!
# Maps from handles

What is known of some handles. `get?` after `insert` and `erase` says all there is to say about a
map.
-/

namespace DirWatch

/-- A value for each of some handles. -/
structure HandleMap (α : Type) where
  entries : List (Handle × α)

namespace HandleMap

variable {α : Type}

def empty : HandleMap α := ⟨[]⟩

def get? (m : HandleMap α) (h : Handle) : Option α :=
  (m.entries.find? fun e => e.1 == h).map (·.2)

def erase (m : HandleMap α) (h : Handle) : HandleMap α :=
  ⟨m.entries.filter fun e => e.1 != h⟩

/-- Gives a handle a value, in place of one that it has. -/
def insert (m : HandleMap α) (h : Handle) (a : α) : HandleMap α :=
  ⟨(h, a) :: (m.erase h).entries⟩

def toList (m : HandleMap α) : List (Handle × α) :=
  m.entries.mergeSort fun a b => a.1.number ≤ b.1.number

@[simp] theorem get?_empty (h : Handle) : (empty : HandleMap α).get? h = none := rfl

@[simp] theorem get?_erase_self (m : HandleMap α) (h : Handle) : (m.erase h).get? h = none := by
  simp [get?, erase]

theorem get?_erase_of_ne (m : HandleMap α) {h k : Handle} (ne : k ≠ h) :
    (m.erase h).get? k = m.get? k := by
  obtain ⟨entries⟩ := m
  simp only [get?, erase, List.find?_filter]
  congr 2
  funext e
  by_cases he : e.1 = k
  · simp [he, ne]
  · simp [he]

@[simp] theorem get?_insert_self (m : HandleMap α) (h : Handle) (a : α) :
    (m.insert h a).get? h = some a := by
  simp [get?, insert]

theorem get?_insert_of_ne (m : HandleMap α) {h k : Handle} (ne : k ≠ h) (a : α) :
    (m.insert h a).get? k = m.get? k := by
  have step : (m.insert h a).get? k = (m.erase h).get? k := by
    simp [get?, insert, Ne.symm ne]
  rw [step, get?_erase_of_ne m ne]

end HandleMap

end DirWatch
