import DirWatch.Json.AnyValue
import DirWatch.Proofs.Json.Naming
import DirWatch.Proofs.Json.Spelling
import Mathlib.Data.List.Forall2

/-!
# Values are read back

A reader reads a value as something if it takes every text of the value for that (`Reader.Reads`).
Readers of scalars, of arrays and of structures are put together from this alone, so that what they
read does not depend on the form in which a value is written. `Value.reader` reads a value as itself
(`Value.reads_within`).
-/

namespace DirWatch.Json

/-! ## Fronts and ends -/

/-- A value begins with a character that is no blank and closes no array. -/
theorem Spelled.front {v : Value} {s : List Char} (text : Spells v s) :
    ∃ c r, s = c :: r ∧ isSpace c = false ∧ c ≠ ']' := by
  cases text with
  | null => exact ⟨'n', "ull".toList, rfl, by decide, by decide⟩
  | bool b =>
    cases b with
    | true => exact ⟨'t', "rue".toList, rfl, by decide, by decide⟩
    | false => exact ⟨'f', "alse".toList, rfl, by decide, by decide⟩
  | number n =>
    obtain ⟨c, r, whole, front⟩ := integerText_front n
    obtain ⟨-, -, -, -, -, -, visible, open_frame⟩ := ne_of_number_front front
    exact ⟨c, r, whole, visible, open_frame .array⟩
  | string text => exact ⟨'"', _, rfl, by decide, by decide⟩
  | array inside => exact ⟨'[', _, rfl, by decide, by decide⟩
  | object inside => exact ⟨'\x7b', _, rfl, by decide, by decide⟩

/-- What follows an element ends a number. -/
theorem Spelled.elements_breaks {items : List Value} {s : List Char}
    (text : Spelled (.elements false items) s) (rest : List Char) : Breaks (s ++ rest) := by
  cases text with
  | noElement blank =>
    rw [List.append_assoc]
    exact blank.breaks (breaks_cons (by decide) (by decide) _)
  | nextElement blank =>
    rw [List.append_assoc]
    exact blank.breaks (breaks_cons (by decide) (by decide) _)

/-! ## Items -/

theorem nextToken_array {b : List Char} (blank : Blank b) (rest : List Char) :
    nextToken (b ++ '[' :: rest) = .ok (.array, rest) := by
  rw [nextToken, skipSpace_append blank, skipSpace_cons (by decide)]
  rfl

theorem nextElement_close {b : List Char} (blank : Blank b) (fresh : Bool) (rest : List Char) :
    Shape.nextElement fresh (b ++ ']' :: rest) = .ok (false, ']' :: rest) := by
  rw [Shape.nextElement, skipSpace_append blank, skipSpace_cons (by decide)]
  rfl

/-- The next element of an array is found; behind its text stand the other elements. -/
theorem Spelled.next_element {fresh : Bool} {v : Value} {items : List Value} {s : List Char}
    (text : Spelled (.elements fresh (v :: items)) s) :
    ∃ t others, Spells v t ∧ Spelled (.elements false items) others ∧
      ∀ rest, Shape.nextElement fresh (s ++ rest) = .ok (true, t ++ (others ++ rest)) := by
  cases text with
  | @firstElement _ _ b t others blank value more =>
    refine ⟨t, others, value, more, ?_⟩
    intro rest
    -- no value begins with the bracket that would end the array here
    obtain ⟨c, r, rfl, visible, other⟩ := value.front
    rw [List.append_assoc, List.append_assoc, Shape.nextElement, skipSpace_append blank,
      List.cons_append, skipSpace_cons visible]
    dsimp only
    rw [if_neg other, if_pos rfl]
  | @nextElement _ _ b b' t others blank blank' value more =>
    refine ⟨t, others, value, more, ?_⟩
    intro rest
    obtain ⟨c, r, rfl, visible, other⟩ := value.front
    rw [List.append_assoc, List.cons_append, List.append_assoc, List.append_assoc,
      Shape.nextElement, skipSpace_append blank, skipSpace_cons (by decide)]
    dsimp only
    rw [if_neg (by decide), if_neg (by decide), if_pos rfl, skipSpace_append blank',
      List.cons_append, skipSpace_cons visible]
    dsimp only
    rw [if_neg other]

/-- The members of an object have its names, and texts that spell its values. -/
theorem Spelled.members_text {named : List (String × Value)} {fresh : Bool} {s : List Char}
    (text : Spelled (.members fresh named) s) : ∃ texts, MembersText fresh texts s ∧
      List.Forall₂ (fun m t => m.1 = t.1 ∧ Spells m.2 t.2) named texts := by
  induction named generalizing fresh s with
  | nil =>
    cases text with
    | noMember blank => exact ⟨[], .close blank, .nil⟩
  | cons m named ih =>
    cases text with
    | @firstMember name _ _ head t s key value more =>
      obtain ⟨texts, others, spelled⟩ := ih more
      exact ⟨(name, t) :: texts, .first key others, .cons ⟨rfl, value⟩ spelled⟩
    | @nextMember name _ _ b head t s blank key value more =>
      obtain ⟨texts, others, spelled⟩ := ih more
      exact ⟨(name, t) :: texts, .next blank key others, .cons ⟨rfl, value⟩ spelled⟩

/-! ## Readers -/

namespace Reader

variable {α β : Type}

/-- A reader that takes every text of a value for the same. -/
def Reads (reader : Reader α) (v : Value) (a : α) : Prop := ∀ s, Spells v s → reader.Takes s a

theorem Reads.check {reader : Reader α} {v : Value} {a : α} (reads : reader.Reads v a)
    {f : α → Except Mismatch β} {b : β} (checked : f a = .ok b) : (reader.check f).Reads v b :=
  fun s text => (reads s text).check checked

theorem Reads.map {reader : Reader α} {v : Value} {a : α} (reads : reader.Reads v a) (f : α → β) :
    (reader.map f).Reads v (f a) := reads.check rfl

/-- A whole text may have blanks behind the value. -/
theorem Reads.readAll {reader : Reader α} {v : Value} {a : α} (reads : reader.Reads v a)
    {s b : List Char} (text : Spells v s) (blank : Blank b) :
    reader.readAll (String.ofList (s ++ b)) = .ok a :=
  (reads s text).readAll ⟨[], b, blank_nil, blank, by simp⟩

theorem elements_eq (item : Reader α) (first : Bool) (s : List Char) :
    item.elements first s = match Shape.nextElement first s with
      | .error e => .error e
      | .ok (false, r) => (skipMark ']' r).map (([], ·))
      | .ok (true, r) => match item.run r with
        | .error e => .error e
        | .ok (a, r) => (item.elements false r).map fun (rest, r) => (a :: rest, r) := by
  conv => lhs; rw [elements]
  split
  · next failed => rw [failed]
  · next closed => rw [closed]
  · next found =>
    rw [found]
    dsimp only
    split
    · next failed => rw [failed]
    · next value => rw [value]

/-- The elements of an array are read one by one. -/
theorem elements_spelled {item : Reader α} {f : α → Value} {as : List α}
    (reads : ∀ a ∈ as, item.Reads (f a) a) {fresh : Bool} {s : List Char}
    (text : Spelled (.elements fresh (as.map f)) s) (rest : List Char) :
    item.elements fresh (s ++ rest) = .ok (as, rest) := by
  induction as generalizing fresh s with
  | nil =>
    cases text with
    | noElement blank =>
      rw [elements_eq, List.append_assoc, List.singleton_append, nextElement_close blank]
      rfl
  | cons a as ih =>
    obtain ⟨first, others⟩ := List.forall_mem_cons.mp reads
    obtain ⟨t, u, value, more, found⟩ := text.next_element
    -- an element that is a number ends where the next mark stands
    have read : item.run (t ++ (u ++ rest)) = .ok (a, u ++ rest) :=
      first t value [] (u ++ rest) blank_nil (more.elements_breaks rest)
    rw [elements_eq, found]
    dsimp only
    rw [read]
    dsimp only
    rw [ih others more]
    rfl

/-- An array is read as the list of what its elements are read as. -/
theorem reads_list {item : Reader α} {f : α → Value} {as : List α}
    (reads : ∀ a ∈ as, item.Reads (f a) a) : (list item).Reads (.array (as.map f)) as := by
  intro s text b rest blank _
  cases text with
  | array inside =>
    simp only [list, List.cons_append, nextToken_array blank, elements_spelled reads inside]

theorem members_eq (value : Reader α) (first : Bool) (s : List Char) :
    value.members first s = match Shape.nextKey first s with
      | .error e => .error e
      | .ok (none, r) => .ok ([], r)
      | .ok (some key, r) => match skipMark ':' r with
        | .error e => .error e
        | .ok r => match value.run r with
          | .error e => .error e
          | .ok (a, r) => (value.members false r).map fun (rest, r) => ((key, a) :: rest, r) := by
  conv => lhs; rw [members]
  split
  · next failed => rw [failed]
  · next closed => rw [closed]
  · next found =>
    rw [found]
    dsimp only
    split
    · next failed => rw [failed]
    · next colon =>
      rw [colon]
      dsimp only
      split
      · next failed => rw [failed]
      · next inner => rw [inner]

/-- The members of an object are read one by one. -/
theorem members_spelled {value : Reader α} {named : List (String × α)}
    {texts : List (String × List Char)}
    (takes : List.Forall₂ (fun m t => m.1 = t.1 ∧ value.Takes t.2 m.2) named texts) {fresh : Bool}
    {s : List Char} (text : MembersText fresh texts s) (rest : List Char) :
    value.members fresh (s ++ rest) = .ok (named, rest) := by
  induction takes generalizing fresh s with
  | nil =>
    cases text with
    | close blank =>
      rw [members_eq, List.append_assoc, List.singleton_append, nextKey_close blank]
  | @cons m t named texts first _ ih =>
    obtain ⟨name, a⟩ := m
    obtain ⟨_, v⟩ := t
    obtain ⟨rfl, takes⟩ := first
    obtain ⟨others, more, reads⟩ := text.next_key
    obtain ⟨u, b, blank, key, colon⟩ := reads rest
    rw [members_eq, key]
    dsimp only
    rw [colon]
    dsimp only
    rw [takes b (others ++ rest) blank (more.breaks rest)]
    dsimp only
    rw [ih more]
    rfl

/-! ### Scalars -/

theorem token_integer {n : Int} (lowest : -2 ^ 63 ≤ n) (highest : n < 2 ^ 64) :
    token.Reads (.number n) (.number (.ofInt n)) := by
  intro s text b rest blank breaks
  cases text with
  | number => exact nextToken_integer blank lowest highest breaks

theorem token_bool (value : Bool) : token.Reads (.bool value) (.bool value) := by
  intro s text b rest blank _
  cases text with
  | bool => exact nextToken_bool blank value rest

theorem token_string (t : String) : token.Reads (.string t) (.string t) := by
  intro s text b rest blank _
  cases text with
  | string text =>
    have front := nextToken_string blank text rest
    rwa [String.ofList_toList] at front

theorem token_null : token.Reads .null .null := by
  intro s text b rest blank _
  cases text with
  | null => exact nextToken_null blank rest

theorem reads_string (expected : String) (t : String) : (string expected).Reads (.string t) t :=
  (token_string t).check rfl

theorem reads_label {variants : List (String × α)} {label : String} {a : α}
    (known : ofLabel variants label = .ok a) : (Reader.label variants).Reads (.string label) a := by
  intro s text
  cases text with
  | string text => exact takes_label known (.quoted text)

theorem reads_nat64 (expected : String) {n : Nat} (fits : n < 2 ^ 64) :
    (nat64 expected).Reads (.nat n) (UInt64.ofNat n) := by
  have token : token.Reads (.nat n) (.number (.nat n)) := token_integer (by omega) (by omega)
  exact token.check rfl

theorem reads_optionalInt32 {n : Int} (lowest : -2 ^ 31 ≤ n) (highest : n < 2 ^ 31) :
    optionalInt32.Reads (.number n) (some n) := by
  have token := token_integer (n := n) (by omega) (by omega)
  refine token.check ?_
  cases n with
  | ofNat n =>
    have small : n < 1 <<< 31 := by
      simp only [Int.ofNat_eq_natCast] at highest
      rw [Nat.one_shiftLeft]
      omega
    exact if_pos small
  | negSucc n =>
    have small : n + 1 ≤ 1 <<< 31 := by
      rw [Nat.one_shiftLeft]
      omega
    exact if_pos small

theorem reads_optionalInt32_null : optionalInt32.Reads .null none := token_null.check rfl

end Reader

/-! ## Structures -/

/-- The elements of an array are taken as a whole, with the bracket that closes it. -/
theorem Reader.skipFrom_of_elements {α : Type} {item : Reader α} (exact : item.Exact) {fresh : Bool}
    {s r : List Char} {as : List α} (reads : item.elements fresh s = .ok (as, r))
    (stack : List Frame) :
    skipFrom (Shape.place fresh) (.array :: stack) s = skipFrom .ended stack r := by
  fun_induction item.elements fresh s generalizing as r with
  | case1 => contradiction
  | case2 fresh s t element =>
    obtain ⟨u, close, eq⟩ := ok_of_map_eq_ok reads
    obtain ⟨-, rfl⟩ := Prod.mk.inj eq
    have front : skipSpace t = Frame.array.closing :: u := skipMark_eq_ok close
    rw [← Shape.nextElement_false element, Shape.skipSpace_skipSpace] at front
    exact Shape.skipFrom_place_close _ front stack
  | case3 => contradiction
  | case4 fresh s t element a u value ih =>
    obtain ⟨⟨rest, v⟩, others, eq⟩ := ok_of_map_eq_ok reads
    obtain ⟨-, rfl⟩ := Prod.mk.inj eq
    rw [Shape.skipFrom_place_element element, exact.inside value]
    exact ih others

theorem Reader.exact_list {α : Type} {item : Reader α} (exact : item.Exact) :
    (list item).Exact := by
  intro s as r reads
  simp only [list] at reads
  split at reads
  · contradiction
  · next t front =>
    rw [skipValue, skipFrom_value, skipFront_of_nextToken front]
    exact (skipFrom_of_elements exact reads []).trans (by rw [skipFrom])
  · contradiction

namespace Shape

variable {σ α : Type} {shape : Shape σ α}

/-- The members of an object, all of them listed, and what they put into the draft. -/
inductive Given (members : List (Member σ)) :
    List (String × Value) → List (Member σ × (σ → σ)) → Prop
  | nil : Given members [] []
  | member {m : Member σ} {name : String} {v : Value} {put : σ → σ} {named : List (String × Value)}
    {puts : List (Member σ × (σ → σ))} (mem : m ∈ members) (same : m.name = name)
    (reads : m.value.Reads v put) (rest : Given members named puts) :
    Given members ((name, v) :: named) ((m, put) :: puts)

theorem Given.names {members : List (Member σ)} {named : List (String × Value)}
    {puts : List (Member σ × (σ → σ))} (given : Given members named puts) :
    (puts.map fun p => p.1.name) = named.map Prod.fst := by
  induction given with
  | nil => rfl
  | member _ same _ _ ih => rw [List.map_cons, List.map_cons, ih, same]

/-- Texts that spell the values of members are taken by them. -/
theorem Given.taken {members : List (Member σ)} {named : List (String × Value)}
    {puts : List (Member σ × (σ → σ))} (given : Given members named puts)
    {texts : List (String × List Char)}
    (spelled : List.Forall₂ (fun m t => m.1 = t.1 ∧ Spells m.2 t.2) named texts) :
    Taken members texts puts := by
  induction given generalizing texts with
  | nil =>
    cases spelled with
    | nil => exact .nil
  | member mem same reads _ ih =>
    cases spelled with
    | @cons _ t _ texts first more =>
      obtain ⟨name, text⟩ := t
      obtain ⟨rfl, spells⟩ := first
      rw [← same]
      exact .listed mem (reads text spells) (ih more)

/-- A structure is read from an object with some of its members, if these make it complete. -/
theorem Given.reads {named : List (String × Value)} {puts : List (Member σ × (σ → σ))}
    (given : Given shape.members named puts) (lawful : shape.Lawful)
    (once : (named.map Prod.fst).Nodup) {a : α}
    (complete : shape.complete (fill shape.blank puts) = .ok a) :
    shape.reader.Reads (.object named) a := by
  intro s text
  rw [← given.names] at once
  cases text with
  | object inside =>
    obtain ⟨texts, members, spelled⟩ := inside.members_text
    exact takes_reader lawful (given.taken spelled) once ⟨_, rfl, members⟩ complete

end Shape

/-! ## Values of any shape -/

namespace Value

open Reader

/-- A value that can be read with so many brackets around any of its parts: its numbers are integers
of 64 bits. -/
def Fits : (depth : Nat) → Value → Prop
  | _, .number n => -2 ^ 63 ≤ n ∧ n < 2 ^ 64
  | 0, .array _ | 0, .object _ => False
  | depth + 1, .array items => ∀ v ∈ items, v.Fits depth
  | depth + 1, .object named => ∀ m ∈ named, m.2.Fits depth
  | _, .null | _, .bool _ | _, .string _ => True

@[simp] theorem fits_null (depth : Nat) : Value.null.Fits depth := by
  cases depth <;> trivial

@[simp] theorem fits_string (depth : Nat) (t : String) : (Value.string t).Fits depth := by
  cases depth <;> trivial

@[simp] theorem fits_number {depth : Nat} {n : Int} :
    (Value.number n).Fits depth ↔ -2 ^ 63 ≤ n ∧ n < 2 ^ 64 := by
  cases depth <;> exact Iff.rfl

@[simp] theorem fits_array {depth : Nat} {items : List Value} :
    (Value.array items).Fits (depth + 1) ↔ ∀ v ∈ items, v.Fits depth := Iff.rfl

@[simp] theorem fits_object {depth : Nat} {named : List (String × Value)} :
    (Value.object named).Fits (depth + 1) ↔ ∀ m ∈ named, m.2.Fits depth := Iff.rfl

theorem scalar_integer (n : Int) : scalar (.number (.ofInt n)) = .ok (.number n) := by
  cases n with
  | ofNat n => rfl
  | negSucc n => rfl

theorem token_leaf {v : Value} (fits : v.Fits 0) :
    ∃ t, token.Reads v t ∧ scalar t = .ok v := by
  cases v with
  | null => exact ⟨.null, token_null, rfl⟩
  | bool b => exact ⟨.bool b, token_bool b, rfl⟩
  | number n => exact ⟨.number (.ofInt n), token_integer fits.1 fits.2, scalar_integer n⟩
  | string t => exact ⟨.string t, token_string t, rfl⟩
  | array items => exact fits.elim
  | object named => exact fits.elim

/-- A value without brackets is read whether there may be some or not. -/
theorem reads_leaf {v : Value} (fits : v.Fits 0) (inner : Option (Reader Value)) :
    (Reader.value inner).Reads v v := by
  intro s text b rest blank breaks
  obtain ⟨t, token, whole⟩ := token_leaf fits
  have front : nextToken (b ++ (s ++ rest)) = .ok (t, rest) := token s text b rest blank breaks
  simp only [Reader.value, front]
  cases t with
  | array => contradiction
  | object => contradiction
  | _ => simp only [whole]

theorem reads_array {part : Reader Value} {items : List Value}
    (reads : ∀ v ∈ items, part.Reads v v) :
    (Reader.value (some part)).Reads (.array items) (.array items) := by
  intro s text b rest blank _
  cases text with
  | array inside =>
    have same : items.map id = items := List.map_id items
    rw [← same] at inside
    simp only [Reader.value, List.cons_append, nextToken_array blank,
      elements_spelled reads inside, Except.map]

theorem reads_object {part : Reader Value} {named : List (String × Value)}
    (reads : ∀ m ∈ named, part.Reads m.2 m.2) :
    (Reader.value (some part)).Reads (.object named) (.object named) := by
  intro s text b rest blank _
  cases text with
  | object inside =>
    obtain ⟨texts, members, spelled⟩ := inside.members_text
    have takes : List.Forall₂ (fun m t => m.1 = t.1 ∧ part.Takes t.2 m.2) named texts := by
      have both : List.Forall₂ (fun m t => part.Reads m.2 m.2 ∧ m.1 = t.1 ∧ Spells m.2 t.2)
          named texts := (List.forall₂_and_left named texts).mpr ⟨reads, spelled⟩
      exact both.imp fun m t ⟨read, name, text⟩ => ⟨name, read t.2 text⟩
    simp only [Reader.value, List.cons_append, nextToken_object blank,
      members_spelled takes members, Except.map]

/-- A value is read as itself from any text that spells it. -/
theorem reads_within {depth : Nat} {v : Value} (fits : v.Fits depth) :
    (readerWithin depth).Reads v v := by
  induction depth generalizing v with
  | zero => exact reads_leaf fits none
  | succ depth ih =>
    -- the parts of an array or of an object have one bracket less around them
    cases v with
    | array items => exact reads_array fun v mem => ih (fits v mem)
    | object named => exact reads_object fun m mem => ih (fits m mem)
    | null => exact reads_leaf (v := .null) trivial _
    | bool b => exact reads_leaf (v := .bool b) trivial _
    | number n => exact reads_leaf (v := .number n) fits _
    | string t => exact reads_leaf (v := .string t) trivial _

end Value

end DirWatch.Json
