import DirWatch.Glob.Syntax

/-!
# Reading globs

A glob is read from left to right into the branch that is open: the whole glob, or the branch of the
innermost group. Two stars are special only where they stand for whole components of a path, which
the character before them and the one after them decide (`doubleStar`).
-/

namespace DirWatch.Glob

/-! ## Classes -/

/-- Sets the end of the last range, which comes first in the list. -/
def extendLast (last : Char) : List (Char × Char) → Except SyntaxError (List (Char × Char))
  | [] => .ok [(last, last)]
  | (first, _) :: ranges =>
    if last < first then .error (.invalidRange first last) else .ok ((first, last) :: ranges)

/-- Reads the items of a class up to its closing bracket. `first` says that no item has been read,
`inRange` that a hyphen waits for the end of the last range; the ranges come last first. -/
def readClass (first inRange : Bool) (ranges : List (Char × Char)) :
    List Char → Except SyntaxError (List (Char × Char) × List Char)
  | [] => .error .unclosedClass
  | c :: r =>
    if c = ']' ∧ !first then
      .ok ((if inRange then ('-', '-') :: ranges else ranges).reverse, r)
    else if c = '-' ∧ !first ∧ !inRange then readClass false true ranges r
    else if inRange then
      match extendLast c ranges with
      | .error e => .error e
      | .ok ranges => readClass false false ranges r
    else readClass false false ((c, c) :: ranges) r

def readOneOf (s : List Char) : Except SyntaxError (Token × List Char) :=
  let (negated, s) := match s with
    | '!' :: r => (true, r)
    | '^' :: r => (true, r)
    | r => (false, r)
  match readClass true false [] s with
  | .error e => .error e
  | .ok (ranges, r) => .ok (.oneOf negated ranges, r)

theorem readClass_le {first inRange ranges s v r}
    (h : readClass first inRange ranges s = .ok (v, r)) : r.length ≤ s.length := by
  induction s generalizing first inRange ranges with
  | nil => simp [readClass] at h
  | cons c t ih =>
    simp only [readClass] at h
    simp only [List.length_cons]
    split at h
    · simp at h; rw [← h.2]; omega
    · split at h
      · have := ih h; omega
      · split at h
        · split at h
          · simp at h
          · have := ih h; omega
        · have := ih h; omega

theorem readOneOf_le {s t r} (h : readOneOf s = .ok (t, r)) : r.length ≤ s.length := by
  unfold readOneOf at h
  split at h
  next negated u sign =>
  have tail : u.length ≤ s.length := by
    split at sign <;> simp at sign <;> obtain ⟨_, rfl⟩ := sign <;> simp
  split at h
  · simp at h
  · next items =>
    have := readClass_le items
    simp at h
    rw [← h.2]; omega

/-! ## Branches and groups -/

/-- A group that is open: its finished branches, last first, and the branch around it. -/
structure Group where
  finished : List (List Token)
  around : List Token

/-- What has been read: the open branch, last token first, the open groups, innermost first, and the
character before the one to be read. -/
structure State where
  branch : List Token
  groups : List Group
  before : Option Char

namespace State

/-- Nothing has been read. -/
def start : State := ⟨[], [], none⟩

/-- Adds a token to the open branch, of which `c` was the last character. -/
def push (st : State) (t : Token) (c : Char) : State :=
  { st with branch := t :: st.branch, before := some c }

/-- Opens a group. -/
def openGroup (st : State) : State :=
  ⟨[], ⟨[], st.branch⟩ :: st.groups, some '\x7b'⟩

/-- Starts another branch of the innermost group; outside groups a comma is a comma. -/
def comma (st : State) : State :=
  match st.groups with
  | [] => st.push (.literal ',') ','
  | g :: groups => ⟨[], { g with finished := st.branch.reverse :: g.finished } :: groups, some ','⟩

/-- Closes the innermost group. -/
def closeGroup (st : State) : Except SyntaxError State :=
  match st.groups with
  | [] => .error .unopenedGroup
  | g :: groups =>
    .ok ⟨.choice (st.branch.reverse :: g.finished).reverse :: g.around, groups, some '\x7d'⟩

/-- Two stars without a special meaning. -/
def twoStars (st : State) : State := (st.push .anyText '*').push .anyText '*'

/-- Puts a token for whole components in place of the slash before it. Behind a token of that kind
that already takes what would be taken, nothing is added. -/
def components (st : State) (t : Token) (c : Char) : State :=
  match st.branch with
  | .anyParents :: _ => { st with before := some c }
  | .anyBelow :: _ => { st with before := some c }
  | _ :: branch => { st with branch := t :: branch, before := some c }
  | [] => st.push t c

/-- Tells whether two stars may stand for whole components behind what has been read: a slash, or
the start of a branch, comes before them. -/
def atComponentStart (st : State) : Bool :=
  st.before == some '/' ||
    (!st.groups.isEmpty && (st.before == some ',' || st.before == some '\x7b'))

end State

/-- Reads two stars, given what follows them. -/
def doubleStar (st : State) (s : List Char) : State × List Char :=
  match st.branch, s with
  | [], [] => (st.push .anyParents '*', [])
  | [], '/' :: r => (st.push .anyParents '/', r)
  | [], s => (st.twoStars, s)
  | _ :: _, s =>
    if !st.atComponentStart then (st.twoStars, s)
    else
      match s with
      | [] => (st.components .anyBelow '*', [])
      | c :: r =>
        if c = '/' then (st.components .anyBetween '/', r)
        else if !st.groups.isEmpty && (c == ',' || c == '\x7d') then
          (st.components .anyBelow '*', c :: r)
        else (st.twoStars, c :: r)

theorem doubleStar_le (st : State) (s : List Char) : (doubleStar st s).2.length ≤ s.length := by
  unfold doubleStar
  repeat' split
  all_goals simp

/-! ## Globs -/

/-- Reads the rest of a glob. -/
def readFrom (st : State) (s : List Char) : Except SyntaxError (List Token) :=
  match s with
  | [] => if st.groups.isEmpty then .ok st.branch.reverse else .error .unclosedGroup
  | '*' :: '*' :: r =>
    have := doubleStar_le st r
    readFrom (doubleStar st r).1 (doubleStar st r).2
  | '\\' :: [] => .error .danglingEscape
  | '\\' :: c :: r => readFrom (st.push (.literal c) c) r
  | '[' :: r =>
    match _h : readOneOf r with
    | .error e => .error e
    | .ok (t, rest) => readFrom (st.push t ']') rest
  | '\x7d' :: r =>
    match st.closeGroup with
    | .error e => .error e
    | .ok st => readFrom st r
  | '*' :: r => readFrom (st.push .anyText '*') r
  | '?' :: r => readFrom (st.push .anyByte '?') r
  | '\x7b' :: r => readFrom st.openGroup r
  | ',' :: r => readFrom st.comma r
  | c :: r => readFrom (st.push (.literal c) c) r
termination_by s.length
decreasing_by
  all_goals simp only [List.length_cons]
  · omega
  · omega
  · have := readOneOf_le _h; omega
  all_goals omega

def parse (text : String) : Except SyntaxError (List Token) := readFrom .start text.toList

end DirWatch.Glob
