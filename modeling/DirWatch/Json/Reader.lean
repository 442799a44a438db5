import DirWatch.Json.Skip

/-!
# Readers of JSON values

A reader takes one value from the front of a text and returns what follows it, which is shorter:
that law is part of the type, so that loops over members and elements end. This module has the
readers of scalars and of labels; `Json.Shape` has those of structures.
-/

namespace DirWatch.Json

/-- Takes a value from the front of a text. -/
structure Reader (α : Type) where
  run : List Char → Except ReadError (α × List Char)
  /-- A value takes at least one character. -/
  shorter : ∀ {s a r}, run s = .ok (a, r) → r.length < s.length

namespace Reader

/-- Changes what a reader returns, or refuses it. -/
def check (reader : Reader α) (f : α → Except Mismatch β) : Reader β where
  run s :=
    match reader.run s with
    | .error e => .error e
    | .ok (a, r) =>
      match f a with
      | .error m => .error (.mismatch m)
      | .ok b => .ok (b, r)
  shorter := by
    intro s b r h
    split at h
    · simp at h
    · next inner =>
      split at h
      · simp at h
      · simp at h; rw [← h.2]; exact reader.shorter inner

/-- Changes what a reader returns. -/
def map (f : α → β) (reader : Reader α) : Reader β := reader.check fun a => .ok (f a)

/-- Reads a whole text; blanks may follow the value, nothing else. -/
def readAll (reader : Reader α) (text : String) : Except ReadError α :=
  match reader.run text.toList with
  | .error e => .error e
  | .ok (a, r) => if skipSpace r = [] then .ok a else .error .malformed

/-! ## Scalars -/

/-- Reads the front of a value. -/
def token : Reader Token where
  run := nextToken
  shorter := nextToken_lt

/-- Reads a natural number of 64 bits; `expected` names the range in messages. -/
def nat64 (expected : String) : Reader UInt64 := token.check fun
  | .number (.nat n) => .ok (UInt64.ofNat n)
  | .number (.negative n) => .error (.wrongValue (.number (.negative n)) expected)
  | found => .error (.wrongType found expected)

/-- Reads `true` or `false`. -/
def bool : Reader Bool := token.check fun
  | .bool b => .ok b
  | found => .error (.wrongType found "a boolean")

/-- Reads a string; `expected` says in messages what it stands for. -/
def string (expected : String) : Reader String := token.check fun
  | .string s => .ok s
  | found => .error (.wrongType found expected)

/-- Reads `null` as nothing, and anything else as a natural number of 64 bits. -/
def optionalNat64 (expected : String) : Reader (Option UInt64) := token.check fun
  | .null => .ok none
  | .number (.nat n) => .ok (some (UInt64.ofNat n))
  | .number (.negative n) => .error (.wrongValue (.number (.negative n)) expected)
  | found => .error (.wrongType found expected)

/-- Reads `null` as nothing, and anything else as an integer of 32 bits. -/
def optionalInt32 : Reader (Option Int) := token.check fun
  | .null => .ok none
  | .number (.nat n) =>
    if n < 1 <<< 31 then .ok (some n) else .error (.wrongValue (.number (.nat n)) "i32")
  | .number (.negative n) =>
    if n ≤ 1 <<< 31 then .ok (some (-n)) else .error (.wrongValue (.number (.negative n)) "i32")
  | found => .error (.wrongType found "i32")

/-! ## Labels -/

/-- The value that a label stands for. -/
def ofLabel (variants : List (String × α)) (label : String) : Except ReadError α :=
  match variants.find? fun v => v.1 == label with
  | some v => .ok v.2
  | none => .error (.mismatch (.unknownVariant label (variants.map (·.1))))

def quotedLabel (variants : List (String × α)) (s : List Char) :
    Except ReadError (α × List Char) :=
  match readString s with
  | .error e => .error e
  | .ok (text, r) => (ofLabel variants (String.ofList text)).map ((·, r))

/-- Reads the label of an object with one member, whose value must be `null`, from the character
after its brace on. Like every key of an object, the label is a string. -/
def wrappedLabel (variants : List (String × α)) (s : List Char) :
    Except ReadError (α × List Char) :=
  match skipMark '"' s with
  | .error e => .error e
  | .ok r =>
    match quotedLabel variants r with
    | .error e => .error e
    | .ok (a, r) =>
      match skipMark ':' r with
      | .error e => .error e
      | .ok r =>
        match nextToken r with
        | .error e => .error e
        | .ok (.null, r) => (skipMark '\x7d' r).map ((a, ·))
        | .ok (found, _) => .error (.mismatch (.wrongType found "unit"))

theorem quotedLabel_lt {variants : List (String × α)} {s a r}
    (h : quotedLabel variants s = .ok (a, r)) : r.length < s.length := by
  unfold quotedLabel at h
  split at h
  · simp at h
  · next text =>
    have := readString_lt text
    obtain ⟨v, found, eq⟩ := ok_of_map_eq_ok h
    simp at eq
    rw [← eq.2]; omega

theorem wrappedLabel_lt {variants : List (String × α)} {s a r}
    (h : wrappedLabel variants s = .ok (a, r)) : r.length < s.length := by
  unfold wrappedLabel at h
  split at h
  · simp at h
  · next quote =>
    have := skipMark_lt quote
    split at h
    · simp at h
    · next label =>
      have := quotedLabel_lt label
      split at h
      · simp at h
      · next colon =>
        have := skipMark_lt colon
        split at h
        · simp at h
        · next null =>
          have := nextToken_lt null
          obtain ⟨v, brace, eq⟩ := ok_of_map_eq_ok h
          simp at eq
          have := skipMark_lt brace
          rw [← eq.2]; omega
        · simp at h

def readLabel (variants : List (String × α)) (s : List Char) : Except ReadError (α × List Char) :=
  match skipSpace s with
  | [] => .error .truncated
  | c :: r =>
    if c = '"' then quotedLabel variants r
    else if c = '\x7b' then wrappedLabel variants r
    else .error .malformed

theorem readLabel_lt {variants : List (String × α)} {s a r}
    (h : readLabel variants s = .ok (a, r)) : r.length < s.length := by
  have space := skipSpace_le s
  unfold readLabel at h
  split at h
  · simp at h
  · next c u front =>
    rw [front] at space
    simp only [List.length_cons] at space
    split at h
    · have := quotedLabel_lt h
      omega
    · split at h
      · have := wrappedLabel_lt h
        omega
      · simp at h

/-- Reads one of a few labels, as a string or as an object whose only member has that name and the
value `null`. -/
def label (variants : List (String × α)) : Reader α where
  run := readLabel variants
  shorter := readLabel_lt

end Reader

end DirWatch.Json
