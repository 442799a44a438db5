import DirWatch.Proofs.Json.Writing

/-!
# Texts that spell a value

A text spells a value if it is in the grammar of JSON and stands for just this value, whatever
blanks stand between its parts and however its strings are escaped (`Spells`). Both written forms of
a value spell it (`spells_compact`, `spells_prettyAt`), and the form on one line has no control
characters (`visible_compact`).
-/

namespace DirWatch.Json

/-- A value, or the items between its brackets; `fresh` says that none stands before them. -/
inductive Node where
  | value (v : Value)
  | elements (fresh : Bool) (items : List Value)
  | members (fresh : Bool) (named : List (String × Value))

/-- The texts of a value, and those of items with the bracket that closes them. -/
inductive Spelled : Node → List Char → Prop
  | null : Spelled (.value .null) "null".toList
  | bool (b : Bool) : Spelled (.value (.bool b)) (wordText b)
  | number (n : Int) : Spelled (.value (.number n)) (integerText n)
  | string {t : String} {s : List Char} (text : StringText s t.toList) :
    Spelled (.value (.string t)) ('"' :: s)
  | array {items : List Value} {s : List Char} (inside : Spelled (.elements true items) s) :
    Spelled (.value (.array items)) ('[' :: s)
  | object {named : List (String × Value)} {s : List Char}
    (inside : Spelled (.members true named) s) : Spelled (.value (.object named)) ('\x7b' :: s)
  | noElement {fresh : Bool} {b : List Char} (blank : Blank b) :
    Spelled (.elements fresh []) (b ++ [']'])
  | firstElement {v : Value} {items : List Value} {b t s : List Char} (blank : Blank b)
    (value : Spelled (.value v) t) (rest : Spelled (.elements false items) s) :
    Spelled (.elements true (v :: items)) (b ++ (t ++ s))
  | nextElement {v : Value} {items : List Value} {b b' t s : List Char} (blank : Blank b)
    (blank' : Blank b') (value : Spelled (.value v) t) (rest : Spelled (.elements false items) s) :
    Spelled (.elements false (v :: items)) (b ++ ',' :: (b' ++ (t ++ s)))
  | noMember {fresh : Bool} {b : List Char} (blank : Blank b) :
    Spelled (.members fresh []) (b ++ ['\x7d'])
  | firstMember {name : String} {v : Value} {named : List (String × Value)} {head t s : List Char}
    (key : KeyText name head) (value : Spelled (.value v) t)
    (rest : Spelled (.members false named) s) :
    Spelled (.members true ((name, v) :: named)) (head ++ (t ++ s))
  | nextMember {name : String} {v : Value} {named : List (String × Value)}
    {b head t s : List Char} (blank : Blank b) (key : KeyText name head)
    (value : Spelled (.value v) t) (rest : Spelled (.members false named) s) :
    Spelled (.members false ((name, v) :: named)) (b ++ ',' :: (head ++ (t ++ s)))

/-- A text that spells a value. -/
abbrev Spells (v : Value) (s : List Char) : Prop := Spelled (.value v) s

/-! ## One line -/

theorem compactItems_cons (v : Value) (rest : List Value) :
    compactItems (v :: rest) ++ [']'] = v.compact ++
      if rest = [] then [']'] else ',' :: (compactItems rest ++ [']']) := by
  cases rest with
  | nil => simp [compactItems]
  | cons w rest => simp [compactItems]

mutual

theorem spells_compact : ∀ v : Value, Spells v v.compact
  | .null => .null
  | .bool b => .bool b
  | .number n => .number n
  | .string s => .string (stringText_write s.toList)
  | .array [] => .array (.noElement blank_nil)
  | .array (v :: rest) => by
    have inside : Spelled (.elements true (v :: rest)) (compactItems (v :: rest) ++ [']']) := by
      rw [compactItems_cons]
      exact .firstElement blank_nil (spells_compact v) (spelled_moreItems rest)
    exact .array inside
  | .object [] => .object (.noMember blank_nil)
  | .object ((k, v) :: rest) => by
    have inside : Spelled (.members true ((k, v) :: rest))
        (compactMembers ((k, v) :: rest) ++ ['\x7d']) := by
      have text := Spelled.firstMember (keyText_write k) (spells_compact v)
        (spelled_moreMembers rest)
      rwa [List.append_assoc, List.singleton_append, ← compactMembers_cons (k, v)] at text
    exact .object inside

/-- What is written behind an item of an array. -/
theorem spelled_moreItems : ∀ items : List Value, Spelled (.elements false items)
    (if items = [] then [']'] else ',' :: (compactItems items ++ [']']))
  | [] => .noElement blank_nil
  | v :: rest => by
    rw [if_neg (List.cons_ne_nil v rest), compactItems_cons]
    exact .nextElement blank_nil blank_nil (spells_compact v) (spelled_moreItems rest)

/-- What is written behind a member of an object. -/
theorem spelled_moreMembers : ∀ named : List (String × Value), Spelled (.members false named)
    (if named = [] then ['\x7d'] else ',' :: (compactMembers named ++ ['\x7d']))
  | [] => .noMember blank_nil
  | (k, v) :: rest => by
    have text := Spelled.nextMember blank_nil (keyText_write k) (spells_compact v)
      (spelled_moreMembers rest)
    rw [if_neg (List.cons_ne_nil (k, v) rest), compactMembers_cons]
    rwa [List.append_assoc, List.singleton_append] at text

end

/-! ## One item a line -/

theorem blank_newLine (depth : Nat) : Blank (newLine depth) := by
  intro c mem
  rcases List.mem_cons.mp mem with rfl | indent
  · rfl
  · rw [List.eq_of_mem_replicate indent]
    rfl

/-- A key on a line of its own, with the blank behind its colon. -/
theorem keyText_newLine (name : String) (depth : Nat) :
    KeyText name (newLine depth ++ writeString name.toList ++ ": ".toList) := by
  refine ⟨newLine depth, _, [], [' '], blank_newLine depth, stringText_write name.toList, blank_nil,
    ?_, ?_⟩
  · intro c mem
    rw [List.mem_singleton.mp mem]
    rfl
  · simp [writeString]

mutual

theorem spells_prettyAt : ∀ (depth : Nat) (v : Value), Spells v (v.prettyAt depth)
  | _, .null => .null
  | _, .bool b => .bool b
  | _, .number n => .number n
  | _, .string s => .string (stringText_write s.toList)
  | _, .array [] => .array (.noElement blank_nil)
  | depth, .array (v :: rest) => by
    have inside := Spelled.firstElement (blank_newLine (depth + 1)) (spells_prettyAt (depth + 1) v)
      (spelled_prettyItems (depth + 1) (blank_newLine depth) rest)
    have text := Spelled.array inside
    rw [Value.prettyAt]
    simpa only [List.append_assoc, List.cons_append, List.nil_append] using text
  | _, .object [] => .object (.noMember blank_nil)
  | depth, .object ((k, v) :: rest) => by
    have inside := Spelled.firstMember (keyText_newLine k (depth + 1))
      (spells_prettyAt (depth + 1) v) (spelled_prettyMembers (depth + 1) (blank_newLine depth) rest)
    have text := Spelled.object inside
    rw [Value.prettyAt]
    simpa only [List.append_assoc, List.cons_append, List.nil_append] using text

theorem spelled_prettyItems : ∀ (depth : Nat) {b : List Char}, Blank b → ∀ items : List Value,
    Spelled (.elements false items) (prettyItems depth items ++ (b ++ [']']))
  | _, _, blank, [] => .noElement blank
  | depth, _, blank, v :: rest => by
    have text := Spelled.nextElement blank_nil (blank_newLine depth) (spells_prettyAt depth v)
      (spelled_prettyItems depth blank rest)
    rw [prettyItems]
    simpa only [List.append_assoc, List.cons_append, List.nil_append] using text

theorem spelled_prettyMembers : ∀ (depth : Nat) {b : List Char}, Blank b →
    ∀ named : List (String × Value),
      Spelled (.members false named) (prettyMembers depth named ++ (b ++ ['\x7d']))
  | _, _, blank, [] => .noMember blank
  | depth, _, blank, (k, v) :: rest => by
    have text := Spelled.nextMember blank_nil (keyText_newLine k depth) (spells_prettyAt depth v)
      (spelled_prettyMembers depth blank rest)
    rw [prettyMembers]
    simpa only [List.append_assoc, List.cons_append, List.nil_append] using text

end

/-! ## Control characters -/

/-- A text without control characters. -/
def Visible (s : List Char) : Prop := ∀ c ∈ s, 0x20 ≤ c.toNat

@[simp] theorem visible_nil : Visible [] := List.forall_mem_nil _

@[simp] theorem visible_cons {c : Char} {s : List Char} :
    Visible (c :: s) ↔ 0x20 ≤ c.toNat ∧ Visible s := List.forall_mem_cons

@[simp] theorem visible_append {s t : List Char} : Visible (s ++ t) ↔ Visible s ∧ Visible t :=
  List.forall_mem_append

@[simp] theorem visible_wordText (b : Bool) : Visible (wordText b) := by
  cases b <;> simp [wordText]

theorem visible_digits (n : Nat) : Visible (Nat.toDigits 10 n) := by
  intro c mem
  have digit := Nat.isDigit_of_mem_toDigits (by decide) (by decide) mem
  simp only [Char.isDigit, Bool.and_eq_true, decide_eq_true_eq, UInt32.le_iff_toNat_le] at digit
  have lowest : 48 ≤ c.toNat := digit.1
  omega

@[simp] theorem visible_integer (n : Int) : Visible (integerText n) := by
  cases n with
  | ofNat n => exact visible_digits n
  | negSucc n => simp [integerText, visible_digits]

/-- The escape of a control character has none. -/
theorem visible_control {n : Nat} (control : n < 0x20) :
    Visible (['\\', 'u', '0', '0'] ++ (if n < 0x10 then ['0'] else []) ++ Text.hexText n) := by
  have all : ((List.range 0x20).all fun n =>
      (['\\', 'u', '0', '0'] ++ (if n < 0x10 then ['0'] else []) ++ Text.hexText n).all
        fun c => 0x20 ≤ c.toNat) = true := by decide +kernel
  intro c mem
  have digits := List.all_eq_true.mp all n (List.mem_range.mpr control)
  exact of_decide_eq_true (List.all_eq_true.mp digits c mem)

theorem visible_escape (c : Char) : Visible (escapeChar c) := by
  unfold escapeChar
  split
  iterate 7 simp
  · split
    · next control => exact visible_control control
    · next printable => simpa using printable

@[simp] theorem visible_string (s : List Char) : Visible (writeString s) := by
  have inside : Visible (s.flatMap escapeChar) := by
    intro c mem
    obtain ⟨d, -, here⟩ := List.mem_flatMap.mp mem
    exact visible_escape d c here
  simp [writeString, inside]

mutual

/-- Whatever characters are in the strings of a value, none of those on its one line is a control
character. -/
theorem visible_compact : ∀ v : Value, Visible v.compact
  | .null => by simp [Value.compact]
  | .bool b => visible_wordText b
  | .number n => visible_integer n
  | .string s => visible_string s.toList
  | .array items => by simp [Value.compact, visible_compactItems items]
  | .object named => by simp [Value.compact, visible_compactMembers named]

theorem visible_compactItems : ∀ items : List Value, Visible (compactItems items)
  | [] => visible_nil
  | [v] => visible_compact v
  | v :: w :: rest => by
    simp [compactItems, visible_compact v, visible_compactItems (w :: rest)]

theorem visible_compactMembers : ∀ named : List (String × Value), Visible (compactMembers named)
  | [] => visible_nil
  | [(k, v)] => by simp [compactMembers, visible_compact v]
  | (k, v) :: m :: rest => by
    simp [compactMembers, visible_compact v, visible_compactMembers (m :: rest)]

end

theorem newline_not_mem_compact (v : Value) : '\n' ∉ v.compact := by
  intro mem
  have visible := visible_compact v '\n' mem
  contradiction

end DirWatch.Json
