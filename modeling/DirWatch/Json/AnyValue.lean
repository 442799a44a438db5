import DirWatch.Json.Shape
import DirWatch.Json.Value

/-!
# Arrays of any length and values of any shape

`Reader.list` reads an array whose elements are all read alike. `Value.reader` reads whatever value
comes, and keeps the members of an object in their order, with all their names. Its numbers have to
be integers of 64 bits, since a token keeps no other ones, and brackets may be nested to a limit.
-/

namespace DirWatch.Json

namespace Reader

/-! ## Arrays -/

/-- Reads elements up to the closing bracket; `first` says that none has been read yet. -/
def elements (item : Reader α) (first : Bool) (s : List Char) :
    Except ReadError (List α × List Char) :=
  match _h : Shape.nextElement first s with
  | .error e => .error e
  | .ok (false, r) => (skipMark ']' r).map (([], ·))
  | .ok (true, r) =>
    match _h' : item.run r with
    | .error e => .error e
    | .ok (a, r) => (item.elements false r).map fun (rest, r) => (a :: rest, r)
termination_by s.length
decreasing_by
  have := Shape.nextElement_le _h
  have := item.shorter _h'
  omega

theorem elements_lt {item : Reader α} {first s as r} (h : item.elements first s = .ok (as, r)) :
    r.length < s.length := by
  fun_induction item.elements first s generalizing as r with
  | case1 => simp at h
  | case2 first s t element =>
    have := Shape.nextElement_le element
    obtain ⟨u, close, eq⟩ := ok_of_map_eq_ok h
    simp at eq
    have := skipMark_lt close
    rw [← eq.2]; omega
  | case3 => simp at h
  | case4 first s t element a u value ih =>
    have := Shape.nextElement_le element
    have := item.shorter value
    obtain ⟨⟨rest, v⟩, others, eq⟩ := ok_of_map_eq_ok h
    simp at eq
    have := ih others
    rw [← eq.2]; omega

/-- Reads an array of any length. -/
def list (item : Reader α) : Reader (List α) where
  run s :=
    match nextToken s with
    | .error e => .error e
    | .ok (.array, r) => item.elements true r
    | .ok (found, _) => .error (.mismatch (.wrongType found "a sequence"))
  shorter := by
    intro s as r h
    split at h
    · simp at h
    · next front =>
      have := nextToken_lt front
      have := elements_lt h
      omega
    · simp at h

/-! ## Objects -/

/-- Reads members with their names up to the closing brace; `first` says that none has been read
yet. -/
def members (value : Reader α) (first : Bool) (s : List Char) :
    Except ReadError (List (String × α) × List Char) :=
  match _h : Shape.nextKey first s with
  | .error e => .error e
  | .ok (none, r) => .ok ([], r)
  | .ok (some key, r) =>
    match _h' : skipMark ':' r with
    | .error e => .error e
    | .ok r =>
      match _h'' : value.run r with
      | .error e => .error e
      | .ok (a, r) => (value.members false r).map fun (rest, r) => ((key, a) :: rest, r)
termination_by s.length
decreasing_by
  have := Shape.nextKey_lt _h
  have := skipMark_lt _h'
  have := value.shorter _h''
  omega

theorem members_lt {value : Reader α} {first s ms r} (h : value.members first s = .ok (ms, r)) :
    r.length < s.length := by
  fun_induction value.members first s generalizing ms r with
  | case1 => simp at h
  | case2 first s t key =>
    have := Shape.nextKey_lt key
    simp at h
    rw [← h.2]; omega
  | case3 => simp at h
  | case4 => simp at h
  | case5 first s key t found u colon a v inner ih =>
    have := Shape.nextKey_lt found
    have := skipMark_lt colon
    have := value.shorter inner
    obtain ⟨⟨rest, w⟩, others, eq⟩ := ok_of_map_eq_ok h
    simp at eq
    have := ih others
    rw [← eq.2]; omega

/-! ## Values -/

/-- The value that a token is on its own. -/
def scalar : Token → Except Mismatch Value
  | .null => .ok .null
  | .bool b => .ok (.bool b)
  | .number (.nat n) => .ok (.nat n)
  | .number (.negative n) => .ok (.number (-n))
  | .string s => .ok (.string s)
  | found => .error (.wrongType found "an integer")

/-- Reads a value whose parts `inner` reads; without it, the value must not be an array or an
object. -/
def value (inner : Option (Reader Value)) : Reader Value where
  run s :=
    match nextToken s with
    | .error e => .error e
    | .ok (.array, r) =>
      match inner with
      | none => .error .malformed
      | some part => (part.elements true r).map fun (items, r) => (.array items, r)
    | .ok (.object, r) =>
      match inner with
      | none => .error .malformed
      | some part => (part.members true r).map fun (ms, r) => (.object ms, r)
    | .ok (t, r) =>
      match scalar t with
      | .error m => .error (.mismatch m)
      | .ok v => .ok (v, r)
  shorter := by
    intro s v r h
    split at h
    · simp at h
    · next front =>
      have := nextToken_lt front
      split at h
      · simp at h
      · obtain ⟨⟨items, t⟩, inside, eq⟩ := ok_of_map_eq_ok h
        simp at eq
        have := elements_lt inside
        rw [← eq.2]; omega
    · next front =>
      have := nextToken_lt front
      split at h
      · simp at h
      · obtain ⟨⟨ms, t⟩, inside, eq⟩ := ok_of_map_eq_ok h
        simp at eq
        have := members_lt inside
        rw [← eq.2]; omega
    · next front =>
      have := nextToken_lt front
      split at h
      · simp at h
      · simp at h; rw [← h.2]; exact this

end Reader

namespace Value

/-- Reads a value with at most `depth` brackets around any of its parts. -/
def readerWithin : (depth : Nat) → Reader Value
  | 0 => .value none
  | depth + 1 => .value (some (readerWithin depth))

/-- The most brackets around a part of a value that is read. -/
def maxDepth : Nat := 127

/-- Reads any value. -/
def reader : Reader Value := readerWithin maxDepth

end Value

end DirWatch.Json
