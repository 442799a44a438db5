import DirWatch.Json.Reader

/-!
# Structures in JSON

A structure is read from an object, whose members may come in any order among others that are
skipped, or from an array of its members in their order. Members are collected in a draft, which is
completed at the end: there a structure with defaults fills its gaps and one without them reports
the first. A member named twice is an error before its second value is looked at.
-/

namespace DirWatch.Json

/-- One member of a structure: `σ` is the draft that holds what has been read. -/
structure Member (σ : Type) where
  name : String
  /-- Tells whether a draft has this member already. -/
  isSet : σ → Bool
  /-- Reads the member's value and puts it into the draft. -/
  value : Reader (σ → σ)

/-- How a structure is read. -/
structure Shape (σ α : Type) where
  name : String
  /-- The members in the order of an array. -/
  members : List (Member σ)
  /-- The draft before any member is read. -/
  blank : σ
  /-- The structure that a draft describes, or the name of the first member that it lacks. -/
  complete : σ → Except String α

namespace Shape

/-! ## Objects -/

/-- Looks for the key of the next member. Nothing is returned at the closing brace, which is taken;
`first` says that no member has been read yet. -/
def nextKey (first : Bool) (s : List Char) :
    Except ReadError (Option String × List Char) :=
  match skipSpace s with
  | [] => .error .truncated
  | c :: r =>
    if c = '\x7d' then .ok (none, r)
    else if first then
      if c = '"' then (readString r).map fun (t, r) => (some (String.ofList t), r)
      else .error .malformed
    else if c = ',' then
      match skipMark '"' r with
      | .error e => .error e
      | .ok r => (readString r).map fun (t, r) => (some (String.ofList t), r)
    else .error .malformed

theorem nextKey_lt {first s k r} (h : nextKey first s = .ok (k, r)) : r.length < s.length := by
  have space := skipSpace_le s
  unfold nextKey at h
  split at h
  · simp at h
  · next c u front =>
    rw [front] at space
    simp only [List.length_cons] at space
    split at h
    · simp at h; rw [← h.2]; omega
    · split at h
      · split at h
        · obtain ⟨v, text, eq⟩ := ok_of_map_eq_ok h
          simp at eq
          have := readString_lt text
          rw [← eq.2]; omega
        · simp at h
      · split at h
        · split at h
          · simp at h
          · next quote =>
            have := skipMark_lt quote
            obtain ⟨v, text, eq⟩ := ok_of_map_eq_ok h
            simp at eq
            have := readString_lt text
            rw [← eq.2]; omega
        · simp at h

/-- Reads the value of a member and puts it into the draft; a member that is not listed is
skipped. -/
def readMember (members : List (Member σ)) (key : String) (draft : σ) (s : List Char) :
    Except ReadError (σ × List Char) :=
  match members.find? fun m => m.name == key with
  | none =>
    match skipMark ':' s with
    | .error e => .error e
    | .ok r => (skipValue r).map ((draft, ·))
  | some m =>
    if m.isSet draft then .error (.mismatch (.repeatedMember key))
    else
      match skipMark ':' s with
      | .error e => .error e
      | .ok r => (m.value.run r).map fun (put, r) => (put draft, r)

theorem readMember_lt {members : List (Member σ)} {key draft s d r}
    (h : readMember members key draft s = .ok (d, r)) : r.length < s.length := by
  unfold readMember at h
  split at h
  · split at h
    · simp at h
    · next colon =>
      have := skipMark_lt colon
      obtain ⟨v, skipped, eq⟩ := ok_of_map_eq_ok h
      simp at eq
      have := skipValue_lt skipped
      rw [← eq.2]; omega
  · next m _ =>
    split at h
    · simp at h
    · split at h
      · simp at h
      · next colon =>
        have := skipMark_lt colon
        obtain ⟨v, value, eq⟩ := ok_of_map_eq_ok h
        simp at eq
        have := m.value.shorter value
        rw [← eq.2]; omega

/-- Reads members up to the closing brace. -/
def readMembers (members : List (Member σ)) (first : Bool) (draft : σ) (s : List Char) :
    Except ReadError (σ × List Char) :=
  match _h : nextKey first s with
  | .error e => .error e
  | .ok (none, r) => .ok (draft, r)
  | .ok (some key, r) =>
    match _h' : readMember members key draft r with
    | .error e => .error e
    | .ok (draft, r) => readMembers members false draft r
termination_by s.length
decreasing_by
  have := nextKey_lt _h
  have := readMember_lt _h'
  omega

theorem readMembers_lt {members : List (Member σ)} {first draft s d r}
    (h : readMembers members first draft s = .ok (d, r)) : r.length < s.length := by
  fun_induction readMembers members first draft s with
  | case1 => simp at h
  | case2 first draft s t key =>
    have := nextKey_lt key
    simp at h
    rw [← h.2]; omega
  | case3 => simp at h
  | case4 first draft s key t found draft' u member ih =>
    have := nextKey_lt found
    have := readMember_lt member
    have := ih h
    omega

/-! ## Arrays -/

/-- Looks for another element. `false` is returned at the closing bracket, which is left; `first`
says that no element has been read yet. -/
def nextElement (first : Bool) (s : List Char) : Except ReadError (Bool × List Char) :=
  match skipSpace s with
  | [] => .error .truncated
  | c :: r =>
    if c = ']' then .ok (false, c :: r)
    else if first then .ok (true, c :: r)
    else if c = ',' then
      match skipSpace r with
      | [] => .error .truncated
      | c :: r => if c = ']' then .error .malformed else .ok (true, c :: r)
    else .error .malformed

theorem nextElement_le {first s b r} (h : nextElement first s = .ok (b, r)) :
    r.length ≤ s.length := by
  have space := skipSpace_le s
  unfold nextElement at h
  split at h
  · simp at h
  · next c u front =>
    rw [front] at space
    split at h
    · simp at h; rw [← h.2]; exact space
    · split at h
      · simp at h; rw [← h.2]; exact space
      · split at h
        · have inner := skipSpace_le u
          split at h
          · simp at h
          · next front' =>
            rw [front'] at inner
            split at h <;> simp at h
            rw [← h.2]
            simp only [List.length_cons] at *
            omega
        · simp at h

/-- Reads elements into the members' places as long as there are both. The number tells how many
were read. -/
def readElements (members : List (Member σ)) (count : Nat) (draft : σ) (s : List Char) :
    Except ReadError (Nat × σ × List Char) :=
  match members with
  | [] => .ok (count, draft, s)
  | m :: members =>
    match nextElement (count == 0) s with
    | .error e => .error e
    | .ok (false, r) => .ok (count, draft, r)
    | .ok (true, r) =>
      match m.value.run r with
      | .error e => .error e
      | .ok (put, r) => readElements members (count + 1) (put draft) r

theorem readElements_le {members : List (Member σ)} {count draft s n d r}
    (h : readElements members count draft s = .ok (n, d, r)) : r.length ≤ s.length := by
  induction members generalizing count draft s with
  | nil => simp [readElements] at h; simp [h]
  | cons m members ih =>
    simp only [readElements] at h
    split at h
    · simp at h
    · next element =>
      have := nextElement_le element
      simp at h
      rw [← h.2.2]; exact this
    · next element =>
      have := nextElement_le element
      split at h
      · simp at h
      · next value =>
        have := m.value.shorter value
        have := ih h
        omega

/-! ## Structures -/

/-- Reads a structure's members from the character after the opening brace on. -/
def readObject (shape : Shape σ α) (s : List Char) : Except ReadError (α × List Char) :=
  match readMembers shape.members true shape.blank s with
  | .error e => .error e
  | .ok (draft, r) =>
    match shape.complete draft with
    | .error name => .error (.mismatch (.missingMember name))
    | .ok a => .ok (a, r)

/-- Reads a structure's members from the character after the opening bracket on. -/
def readArray (shape : Shape σ α) (s : List Char) : Except ReadError (α × List Char) :=
  match readElements shape.members 0 shape.blank s with
  | .error e => .error e
  | .ok (count, draft, r) =>
    match shape.complete draft with
    | .error _ =>
      .error (.mismatch (.tooShort count
        ("struct " ++ shape.name ++ " with " ++ toString shape.members.length ++ " elements")))
    | .ok a => (skipMark ']' r).map ((a, ·))

def reader (shape : Shape σ α) : Reader α where
  run s :=
    match nextToken s with
    | .error e => .error e
    | .ok (.object, r) => shape.readObject r
    | .ok (.array, r) => shape.readArray r
    | .ok (found, _) => .error (.mismatch (.wrongType found ("struct " ++ shape.name)))
  shorter := by
    intro s a r h
    split at h
    · simp at h
    · next front =>
      have := nextToken_lt front
      unfold readObject at h
      split at h
      · simp at h
      · next members =>
        have := readMembers_lt members
        split at h <;> simp at h
        rw [← h.2]; omega
    · next front =>
      have := nextToken_lt front
      unfold readArray at h
      split at h
      · simp at h
      · next elements =>
        have := readElements_le elements
        split at h
        · simp at h
        · obtain ⟨v, close, eq⟩ := ok_of_map_eq_ok h
          simp at eq
          have := skipMark_lt close
          rw [← eq.2]; omega
    · simp at h

end Shape

end DirWatch.Json
