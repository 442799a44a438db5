import DirWatch.Json.Skip
import DirWatch.Json.Value

/-!
# The grammar of JSON

What JSON texts look like, apart from any reader: strings with what they stand for (`StringText`),
numbers (`NumberText`), values of any depth (`ValueText`), and objects with the names and the values
of their members (`MembersText`).
-/

namespace DirWatch.Json

/-! ## Blanks -/

/-- A text of blanks alone, as they may stand between tokens. -/
def Blank (b : List Char) : Prop := ∀ c ∈ b, isSpace c = true

/-- A text that does not go on with a number that stands before it. -/
def Breaks (rest : List Char) : Prop :=
  ∀ c ∈ rest.head?, c.isDigit = false ∧ c ≠ '.' ∧ c ≠ 'e' ∧ c ≠ 'E'

theorem blank_nil : Blank [] := fun _ mem => absurd mem List.not_mem_nil

theorem breaks_nil : Breaks [] := fun _ mem => absurd mem (Option.not_mem_none _)

theorem breaks_cons {c : Char} (digit : c.isDigit = false)
    (others : c ≠ '.' ∧ c ≠ 'e' ∧ c ≠ 'E') (rest : List Char) : Breaks (c :: rest) := by
  intro d front
  obtain rfl : c = d := Option.mem_some_iff.mp front
  exact ⟨digit, others⟩

/-- Blanks end a number, and so does what ends one behind blanks. -/
theorem Blank.breaks {b rest : List Char} (blank : Blank b) (breaks : Breaks rest) :
    Breaks (b ++ rest) := by
  cases b with
  | nil => exact breaks
  | cons c b =>
    have space := blank c List.mem_cons_self
    simp only [isSpace, Bool.or_eq_true, decide_eq_true_eq] at space
    rcases space with ((rfl | rfl) | rfl) | rfl <;>
      exact breaks_cons (by decide) (by decide) _

/-- Blanks at the end of a text end a number. -/
theorem Blank.breaks_last {b : List Char} (blank : Blank b) : Breaks b := by
  have breaks := blank.breaks breaks_nil
  rwa [List.append_nil] at breaks

/-! ## Strings -/

/-- Four hexadecimal digits and the number that they stand for. -/
def UnitText (digits : List Char) (n : Nat) : Prop :=
  digits.length = 4 ∧ Text.hexValue? digits = some n

/-- The inside of a string with its closing quote, and the characters that it stands for. Characters
may stand for themselves or be written as escapes; one beyond the basic plane needs two of them. -/
inductive StringText : List Char → List Char → Prop
  | close : StringText ['"'] []
  | plain {c : Char} {s t : List Char} (quote : c ≠ '"') (backslash : c ≠ '\\')
    (printable : 0x20 ≤ c.toNat) (rest : StringText s t) : StringText (c :: s) (c :: t)
  | short {c e : Char} {s t : List Char} (escape : shortEscape? c = some e)
    (rest : StringText s t) : StringText ('\\' :: c :: s) (e :: t)
  | unit {c : Char} {digits s t : List Char} (small : c.toNat < 0x10000)
    (unit : UnitText digits c.toNat) (rest : StringText s t) :
    StringText ('\\' :: 'u' :: (digits ++ s)) (c :: t)
  | pair {c : Char} {high low s t : List Char} (large : ¬c.toNat < 0x10000)
    (first : UnitText high (0xD800 + (c.toNat - 0x10000) / 0x400))
    (second : UnitText low (0xDC00 + (c.toNat - 0x10000) % 0x400)) (rest : StringText s t) :
    StringText ('\\' :: 'u' :: (high ++ '\\' :: 'u' :: (low ++ s))) (c :: t)

/-- The inside of a string with its closing quote. Surrogates need no partners here, so that the
string may stand for nothing. -/
inductive StringLike : List Char → Prop
  | close : StringLike ['"']
  | plain {c : Char} {s : List Char} (quote : c ≠ '"') (backslash : c ≠ '\\')
    (printable : 0x20 ≤ c.toNat) (rest : StringLike s) : StringLike (c :: s)
  | short {c e : Char} {s : List Char} (escape : shortEscape? c = some e) (rest : StringLike s) :
    StringLike ('\\' :: c :: s)
  | unit {n : Nat} {digits s : List Char} (unit : UnitText digits n) (rest : StringLike s) :
    StringLike ('\\' :: 'u' :: (digits ++ s))

/-! ## Numbers -/

/-- Some digits, at least one. -/
def Digits (ds : List Char) : Prop := ds ≠ [] ∧ ∀ d ∈ ds, d.isDigit = true

inductive ExponentText : List Char → Prop
  | none : ExponentText []
  | some {c : Char} {sign ds : List Char} (mark : c = 'e' ∨ c = 'E')
    (signed : sign = [] ∨ sign = ['+'] ∨ sign = ['-']) (digits : Digits ds) :
    ExponentText (c :: (sign ++ ds))

/-- What follows the integer part of a number. -/
inductive FractionText : List Char → Prop
  | none {e : List Char} (exponent : ExponentText e) : FractionText e
  | some {ds e : List Char} (digits : Digits ds) (exponent : ExponentText e) :
    FractionText ('.' :: (ds ++ e))

/-- Digits without a needless zero before them. -/
inductive IntegerText : List Char → Prop
  | zero : IntegerText ['0']
  | positive {d : Char} {ds : List Char} (leading : d ≠ '0') (first : d.isDigit = true)
    (others : ∀ d ∈ ds, d.isDigit = true) : IntegerText (d :: ds)

inductive NumberText : List Char → Prop
  | unsigned {n f : List Char} (integer : IntegerText n) (fraction : FractionText f) :
    NumberText (n ++ f)
  | negative {n f : List Char} (integer : IntegerText n) (fraction : FractionText f) :
    NumberText ('-' :: (n ++ f))

theorem IntegerText.first_digit {n : List Char} (integer : IntegerText n) :
    ∃ d ds, n = d :: ds ∧ d.isDigit = true := by
  cases integer with
  | zero => exact ⟨'0', [], rfl, by decide⟩
  | @positive d ds _ first _ => exact ⟨d, ds, rfl, first⟩

theorem Breaks.no_digit {rest : List Char} (breaks : Breaks rest) :
    ∀ c ∈ rest.head?, c.isDigit = false :=
  fun c front => (breaks c front).1

/-- What may follow an integer part does not go on with its digits. -/
theorem FractionText.no_digit {f rest : List Char} (fraction : FractionText f)
    (breaks : Breaks rest) : ∀ c ∈ (f ++ rest).head?, c.isDigit = false := by
  intro c front
  cases fraction with
  | none exponent =>
    cases exponent with
    | none => exact (breaks c front).1
    | some mark signed digits =>
      obtain rfl := Option.some.inj front
      rcases mark with rfl | rfl <;> decide
  | some digits exponent =>
    obtain rfl := Option.some.inj front
    decide

theorem NumberText.front {s : List Char} (number : NumberText s) :
    ∃ c r, s = c :: r ∧ (c = '-' ∨ c.isDigit = true) := by
  cases number with
  | unsigned integer fraction =>
    obtain ⟨d, ds, rfl, first⟩ := integer.first_digit
    exact ⟨d, ds ++ _, rfl, .inr first⟩
  | negative integer fraction => exact ⟨'-', _, rfl, .inl rfl⟩

/-- A number cannot be taken for anything else by its first character. -/
theorem ne_of_number_front {c : Char} (front : c = '-' ∨ c.isDigit = true) :
    c ≠ 'n' ∧ c ≠ 't' ∧ c ≠ 'f' ∧ c ≠ '"' ∧ c ≠ '[' ∧ c ≠ '\x7b' ∧ isSpace c = false ∧
      ∀ frame : Frame, c ≠ frame.closing := by
  have other : ∀ d : Char, d ≠ '-' → d.isDigit = false → c ≠ d := by
    rintro d minus digit rfl
    rcases front with same | same
    · exact minus same
    · rw [digit] at same
      contradiction
  refine ⟨other _ ?_ ?_, other _ ?_ ?_, other _ ?_ ?_, other _ ?_ ?_, other _ ?_ ?_, other _ ?_ ?_,
    ?_, ?_⟩
  iterate 12 decide
  · have not_blank : c ≠ ' ' ∧ c ≠ '\t' ∧ c ≠ '\n' ∧ c ≠ '\r' :=
      ⟨other _ (by decide) (by decide), other _ (by decide) (by decide),
        other _ (by decide) (by decide), other _ (by decide) (by decide)⟩
    simp [isSpace, not_blank]
  · intro frame
    cases frame <;> exact other _ (by decide) (by decide)

/-! ## Values -/

def Frame.opening : Frame → Char
  | array => '['
  | object => '\x7b'

/-- What comes before the value of an item: blanks, and in an object a key and a colon. -/
inductive HeadText : Frame → List Char → Prop
  | array {b : List Char} (blank : Blank b) : HeadText .array b
  | object {b key b' b'' : List Char} (blank : Blank b) (string : StringLike key) (blank' : Blank b')
    (blank'' : Blank b'') : HeadText .object (b ++ '"' :: (key ++ (b' ++ ':' :: b'')))

/-- The parts of JSON texts. -/
inductive Part where
  | value
  /-- What follows the bracket that opens a frame, with the one that closes it. -/
  | opened (frame : Frame)
  /-- What follows an item in a frame, with the bracket that closes the frame. -/
  | ended (frame : Frame)

/-- The grammar of values. -/
inductive Grammar : Part → List Char → Prop
  | null : Grammar .value "null".toList
  | bool (b : Bool) : Grammar .value (wordText b)
  | number {s : List Char} (number : NumberText s) : Grammar .value s
  | string {s : List Char} (string : StringLike s) : Grammar .value ('"' :: s)
  | bracket {frame : Frame} {s : List Char} (inside : Grammar (.opened frame) s) :
    Grammar .value (frame.opening :: s)
  | empty {frame : Frame} {b : List Char} (blank : Blank b) :
    Grammar (.opened frame) (b ++ [frame.closing])
  | first {frame : Frame} {head v s : List Char} (head_text : HeadText frame head)
    (value : Grammar .value v) (rest : Grammar (.ended frame) s) :
    Grammar (.opened frame) (head ++ (v ++ s))
  | last {frame : Frame} {b : List Char} (blank : Blank b) :
    Grammar (.ended frame) (b ++ [frame.closing])
  | next {frame : Frame} {b head v s : List Char} (blank : Blank b)
    (head_text : HeadText frame head) (value : Grammar .value v)
    (rest : Grammar (.ended frame) s) :
    Grammar (.ended frame) (b ++ ',' :: (head ++ (v ++ s)))

/-- Well-formed JSON values, without blanks around them. -/
abbrev ValueText (s : List Char) : Prop := Grammar .value s

/-- What follows an item ends a number. -/
theorem Grammar.breaks {frame : Frame} {s : List Char} (text : Grammar (.ended frame) s)
    (rest : List Char) : Breaks (s ++ rest) := by
  cases text with
  | last blank =>
    rw [List.append_assoc]
    apply blank.breaks
    cases frame <;> exact breaks_cons (by decide) (by decide) _
  | next blank =>
    rw [List.append_assoc]
    exact blank.breaks (breaks_cons (by decide) (by decide) _)

/-- A value begins with a character that is no blank and closes no frame. -/
theorem Grammar.front {v : List Char} (value : ValueText v) :
    ∃ c r, v = c :: r ∧ isSpace c = false ∧ ∀ frame : Frame, c ≠ frame.closing := by
  cases value with
  | null => exact ⟨'n', "ull".toList, rfl, by decide, by rintro (_ | _) <;> decide⟩
  | bool b =>
    cases b with
    | true => exact ⟨'t', "rue".toList, rfl, by decide, by rintro (_ | _) <;> decide⟩
    | false => exact ⟨'f', "alse".toList, rfl, by decide, by rintro (_ | _) <;> decide⟩
  | number number =>
    obtain ⟨c, r, rfl, front⟩ := number.front
    obtain ⟨-, -, -, -, -, -, visible⟩ := ne_of_number_front front
    exact ⟨c, r, rfl, visible⟩
  | string string => exact ⟨'"', _, rfl, by decide, by rintro (_ | _) <;> decide⟩
  | @bracket frame s inside =>
    cases frame <;> exact ⟨_, _, rfl, by decide, by rintro (_ | _) <;> decide⟩

/-! ## Members -/

/-- The key of a member and its colon, with the name that the key spells. -/
def KeyText (name : String) (head : List Char) : Prop :=
  ∃ b key b' b'', Blank b ∧ StringText key name.toList ∧ Blank b' ∧ Blank b'' ∧
    head = b ++ '"' :: (key ++ (b' ++ ':' :: b''))

/-- What follows the opening brace of an object with the closing one, and the names and the values
of the members in between; `fresh` says that no member stands before it. -/
inductive MembersText : (fresh : Bool) → List (String × List Char) → List Char → Prop
  | close {fresh : Bool} {b : List Char} (blank : Blank b) : MembersText fresh [] (b ++ ['\x7d'])
  | first {name : String} {head v s : List Char} {members : List (String × List Char)}
    (key : KeyText name head) (rest : MembersText false members s) :
    MembersText true ((name, v) :: members) (head ++ (v ++ s))
  | next {name : String} {b head v s : List Char} {members : List (String × List Char)}
    (blank : Blank b) (key : KeyText name head) (rest : MembersText false members s) :
    MembersText false ((name, v) :: members) (b ++ ',' :: (head ++ (v ++ s)))

/-- An object with the names and the values of its members. -/
def ObjectText (members : List (String × List Char)) (s : List Char) : Prop :=
  ∃ inside, s = '\x7b' :: inside ∧ MembersText true members inside

/-- What follows a member ends a number. -/
theorem MembersText.breaks {members : List (String × List Char)} {s : List Char}
    (text : MembersText false members s) (rest : List Char) : Breaks (s ++ rest) := by
  cases text with
  | close blank =>
    rw [List.append_assoc]
    exact blank.breaks (breaks_cons (by decide) (by decide) _)
  | next blank =>
    rw [List.append_assoc]
    exact blank.breaks (breaks_cons (by decide) (by decide) _)

end DirWatch.Json
