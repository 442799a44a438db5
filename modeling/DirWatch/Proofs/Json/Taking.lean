import DirWatch.Proofs.Json.Exact
import Mathlib.Algebra.Group.Int.Defs
import Mathlib.Algebra.Group.Nat.Defs

/-!
# What readers of scalars take

A reader takes a text for a value if it does so whatever blanks stand before the text and whatever
follows it (`Reader.Takes`). Here are the texts that the readers of scalars and labels take: decimal
digits, words, and strings however they are escaped.
-/

namespace DirWatch.Json

/-! ## Strings -/

theorem isLowSurrogate_of_high {u : UInt16} (high : Text.isHighSurrogate u = true) :
    Text.isLowSurrogate u = false := by
  simp only [Text.isHighSurrogate, Text.isLowSurrogate, Bool.and_eq_true, Bool.and_eq_false_iff,
    decide_eq_true_eq, decide_eq_false_iff_not, UInt16.le_iff_toNat_le] at high ⊢
  left
  have bound := high.2
  simp only [UInt16.reduceToNat] at bound ⊢
  omega

theorem readUnicode_unit {c : Char} {digits : List Char} (small : c.toNat < 0x10000)
    (unit : UnitText digits c.toNat) (s : List Char) :
    readUnicode (digits ++ s) = .ok (c, s) := by
  obtain ⟨high, low, -⟩ := Text.charOfUnit_ofNat c small
  rw [readUnicode, readUnit_append unit]
  dsimp only
  rw [low, high, Char.ofNat_toNat]
  rfl

theorem readUnicode_pair {c : Char} {digits digits' : List Char} (large : ¬c.toNat < 0x10000)
    (first : UnitText digits (0xD800 + (c.toNat - 0x10000) / 0x400))
    (second : UnitText digits' (0xDC00 + (c.toNat - 0x10000) % 0x400)) (s : List Char) :
    readUnicode (digits ++ '\\' :: 'u' :: (digits' ++ s)) = .ok (c, s) := by
  obtain ⟨high, low, pair⟩ := Text.charOfPair_ofNat c large
  rw [readUnicode, readUnit_append first]
  dsimp only
  rw [isLowSurrogate_of_high high, high, if_neg (by decide), if_pos rfl]
  simp only [readUnit_append second, low, pair, if_pos]

/-- A string is read as what it stands for. -/
theorem readString_append {s t : List Char} (text : StringText s t) (rest : List Char) :
    readString (s ++ rest) = .ok (t, rest) := by
  induction text with
  | close => rw [List.singleton_append, readString, if_pos rfl]
  | plain quote backslash printable _ ih =>
    rw [List.cons_append, readString, if_neg quote, if_neg backslash,
      if_neg (Nat.not_lt.mpr printable), ih]
  | @short c e s t escape _ ih =>
    have escapes : readEscape (c :: (s ++ rest)) = .ok (e, s ++ rest) := by
      rw [readEscape.eq_def]
      split
      · next nothing => contradiction
      · next front => exact absurd (List.cons.inj front).1 (ne_u_of_shortEscape escape)
      · next front =>
        obtain ⟨rfl, rfl⟩ := List.cons.inj front
        rw [escape]
    rw [List.cons_append, List.cons_append, readString, if_neg (by decide), if_pos rfl, escapes]
    dsimp only
    rw [ih]
  | @unit c digits s t small unit _ ih =>
    have escapes : readEscape ('u' :: (digits ++ (s ++ rest))) = .ok (c, s ++ rest) :=
      readUnicode_unit small unit _
    rw [List.cons_append, List.cons_append, List.append_assoc, readString, if_neg (by decide),
      if_pos rfl, escapes]
    dsimp only
    rw [ih]
  | @pair c high low s t large first second _ ih =>
    have escapes : readEscape ('u' :: (high ++ '\\' :: 'u' :: (low ++ (s ++ rest)))) =
        .ok (c, s ++ rest) := readUnicode_pair large first second _
    rw [List.cons_append, List.cons_append, List.append_assoc, List.cons_append, List.cons_append,
      List.append_assoc, readString, if_neg (by decide), if_pos rfl, escapes]
    dsimp only
    rw [ih]

/-! ## Natural numbers -/

theorem absorbDigits_append {n m : Nat} {ds : List Char} (absorbed : absorbDigits n ds = (m, 0))
    {c : Char} (fits : 10 * m + digitValue c ≤ maxNat64) :
    absorbDigits n (ds ++ [c]) = (10 * m + digitValue c, 0) := by
  induction ds generalizing n with
  | nil =>
    obtain ⟨rfl, -⟩ := Prod.mk.inj absorbed
    rw [List.nil_append, absorbDigits, if_neg (Nat.not_lt.mpr fits), absorbDigits]
  | cons d ds ih =>
    rw [absorbDigits] at absorbed
    rw [List.cons_append, absorbDigits]
    split at absorbed
    · simp at absorbed
    · next fits' =>
      rw [if_neg fits']
      exact ih absorbed

/-- The decimal digits of a number, read one after another. -/
theorem toDigits_spec (n : Nat) :
    ∃ d ds, Nat.toDigits 10 n = d :: ds ∧ (d = '0' → n = 0 ∧ ds = []) ∧
    (n ≤ maxNat64 → absorbDigits (digitValue d) ds = (n, 0)) := by
  induction n using Nat.strongRecOn with
  | ind n ih =>
    rcases Nat.lt_or_ge n 10 with small | large
    · refine ⟨n.digitChar, [], Nat.toDigits_of_lt_base small, ?_, ?_⟩
      · intro zero
        exact ⟨Nat.digitChar_eq_zero.mp zero, rfl⟩
      · intro _
        rw [absorbDigits, digitValue, Nat.toNat_digitChar_sub_48_of_lt_ten small]
    · obtain ⟨d, ds, digits, leading, absorbed⟩ := ih (n / 10) (by omega)
      refine ⟨d, ds ++ [(n % 10).digitChar], ?_, ?_, ?_⟩
      · rw [Nat.toDigits_of_base_le (by decide) large, digits, List.cons_append]
      · intro zero
        have none_left := (leading zero).1
        omega
      · intro fits
        have value : digitValue (n % 10).digitChar = n % 10 :=
          Nat.toNat_digitChar_sub_48_of_lt_ten (Nat.mod_lt n (by decide))
        have whole : 10 * (n / 10) + digitValue (n % 10).digitChar = n := by
          rw [value]
          omega
        have appended := absorbDigits_append (absorbed (by omega)) (whole.symm ▸ fits)
        rwa [whole] at appended

theorem isDigit_of_mem_toDigits {n : Nat} {c : Char} (mem : c ∈ Nat.toDigits 10 n) :
    c.isDigit = true := Nat.isDigit_of_mem_toDigits (by decide) (by decide) mem

theorem readFraction_of_breaks {rest : List Char} (breaks : Breaks rest) (negative : Bool)
    (n : Nat) : readFraction negative n 0 rest = .ok (integer negative n, rest) := by
  rw [readFraction.eq_def]
  match rest with
  | [] => rfl
  | c :: r =>
    obtain ⟨-, point, lower, upper⟩ := breaks c rfl
    split
    · next front => exact absurd (List.cons.inj front).1 point
    · next front =>
      obtain ⟨rfl, rfl⟩ := List.cons.inj front
      simp [lower, upper]
    · contradiction

/-- Decimal digits are read as the integer that they stand for, with the sign before them. -/
theorem readNumber_signed {n : Nat} (fits : n ≤ maxNat64) (negative : Bool) {rest : List Char}
    (breaks : Breaks rest) :
    readNumber ((if negative then ['-'] else []) ++ (Nat.toDigits 10 n ++ rest)) =
      .ok (integer negative n, rest) := by
  obtain ⟨d, ds, digits, leading, absorbed⟩ := toDigits_spec n
  have all : ∀ c ∈ d :: ds, c.isDigit = true := by
    intro c mem
    rw [← digits] at mem
    exact isDigit_of_mem_toDigits mem
  have first := all d List.mem_cons_self
  have minus : d ≠ '-' := by
    rintro rfl
    exact absurd first (by decide)
  have taken : takeDigits (ds ++ rest) = (ds, rest) :=
    takeDigits_append (fun c mem => all c (List.mem_cons_of_mem _ mem)) breaks.no_digit
  rw [digits, List.cons_append, readNumber.eq_def]
  split
  next negative' s signed =>
  obtain ⟨rfl, rfl⟩ : negative = negative' ∧ d :: (ds ++ rest) = s := by
    cases negative with
    | true => exact Prod.mk.inj signed
    | false =>
      split at signed
      · next front => exact absurd (List.cons.inj front).1 minus
      · exact Prod.mk.inj signed
  dsimp only
  split
  · next zero =>
    obtain ⟨rfl, rfl⟩ := leading zero
    rw [taken]
    exact readFraction_of_breaks breaks negative 0
  · rw [taken, absorbed fits]
    exact readFraction_of_breaks breaks negative n

theorem readNumber_toDigits {n : Nat} (fits : n ≤ maxNat64) {rest : List Char}
    (breaks : Breaks rest) : readNumber (Nat.toDigits 10 n ++ rest) = .ok (.nat n, rest) :=
  readNumber_signed fits false breaks

theorem numberText_toDigits (n : Nat) : NumberText (Nat.toDigits 10 n) := by
  obtain ⟨d, ds, digits, leading, -⟩ := toDigits_spec n
  have all : ∀ c ∈ d :: ds, c.isDigit = true := by
    intro c mem
    rw [← digits] at mem
    exact isDigit_of_mem_toDigits mem
  rw [digits, ← List.append_nil (d :: ds)]
  refine .unsigned ?_ (.none .none)
  by_cases zero : d = '0'
  · obtain ⟨-, rfl⟩ := leading zero
    rw [zero]
    exact .zero
  · exact .positive zero (all d List.mem_cons_self) fun c mem => all c (List.mem_cons_of_mem _ mem)

/-! ## Tokens -/

theorem nextToken_string {b s t : List Char} (blank : Blank b) (text : StringText s t)
    (rest : List Char) :
    nextToken (b ++ ('"' :: s ++ rest)) = .ok (.string (String.ofList t), rest) := by
  rw [nextToken, skipSpace_append blank, List.cons_append, skipSpace_cons (by decide)]
  dsimp only
  rw [if_neg (by decide), if_neg (by decide), if_neg (by decide), if_pos rfl,
    readString_append text]
  rfl

theorem nextToken_null {b : List Char} (blank : Blank b) (rest : List Char) :
    nextToken (b ++ ("null".toList ++ rest)) = .ok (.null, rest) := by
  have word : skipSpace ("null".toList ++ rest) = 'n' :: ("ull".toList ++ rest) :=
    skipSpace_cons (by decide) _
  rw [nextToken, skipSpace_append blank, word]
  dsimp only
  rw [if_pos rfl, skipWord_append]
  rfl

theorem nextToken_bool {b : List Char} (blank : Blank b) (value : Bool) (rest : List Char) :
    nextToken (b ++ (wordText value ++ rest)) = .ok (.bool value, rest) := by
  rw [nextToken, skipSpace_append blank]
  cases value with
  | true =>
    have word : skipSpace (wordText true ++ rest) = 't' :: ("rue".toList ++ rest) :=
      skipSpace_cons (by decide) _
    rw [word]
    dsimp only
    rw [if_neg (by decide), if_pos rfl, skipWord_append]
    rfl
  | false =>
    have word : skipSpace (wordText false ++ rest) = 'f' :: ("alse".toList ++ rest) :=
      skipSpace_cons (by decide) _
    rw [word]
    dsimp only
    rw [if_neg (by decide), if_neg (by decide), if_pos rfl, skipWord_append]
    rfl

theorem nextToken_object {b : List Char} (blank : Blank b) (rest : List Char) :
    nextToken (b ++ '\x7b' :: rest) = .ok (.object, rest) := by
  rw [nextToken, skipSpace_append blank, skipSpace_cons (by decide)]
  rfl

theorem nextToken_number {b s : List Char} (blank : Blank b)
    (begins : ∃ c r, s = c :: r ∧ (c = '-' ∨ c.isDigit = true)) {number : Number}
    {rest : List Char} (reads : readNumber (s ++ rest) = .ok (number, rest)) :
    nextToken (b ++ (s ++ rest)) = .ok (.number number, rest) := by
  obtain ⟨c, r, rfl, front⟩ := begins
  obtain ⟨null, yes, no, quote, bracket, brace, visible, -⟩ := ne_of_number_front front
  rw [List.cons_append] at reads
  rw [nextToken, skipSpace_append blank, List.cons_append, skipSpace_cons visible]
  dsimp only
  rw [if_neg null, if_neg yes, if_neg no, if_neg quote, if_neg bracket, if_neg brace,
    if_pos (by simpa using front), reads]
  rfl

theorem nextToken_nat {b : List Char} (blank : Blank b) {n : Nat} (fits : n ≤ maxNat64)
    {rest : List Char} (breaks : Breaks rest) :
    nextToken (b ++ (Nat.toDigits 10 n ++ rest)) = .ok (.number (.nat n), rest) :=
  nextToken_number blank (numberText_toDigits n).front (readNumber_toDigits fits breaks)

theorem integerText_front (n : Int) :
    ∃ c r, integerText n = c :: r ∧ (c = '-' ∨ c.isDigit = true) := by
  cases n with
  | ofNat n => exact (numberText_toDigits n).front
  | negSucc n => exact ⟨'-', _, rfl, .inl rfl⟩

/-- An integer as readers see it. -/
def Number.ofInt : Int → Number
  | .ofNat n => .nat n
  | .negSucc n => .negative (n + 1)

/-- The text of an integer of 64 bits is read as this integer. -/
theorem nextToken_integer {b : List Char} (blank : Blank b) {n : Int} (lowest : -2 ^ 63 ≤ n)
    (highest : n < 2 ^ 64) {rest : List Char} (breaks : Breaks rest) :
    nextToken (b ++ (integerText n ++ rest)) = .ok (.number (.ofInt n), rest) := by
  refine nextToken_number blank (integerText_front n) ?_
  have whole : maxNat64 = 2 ^ 64 - 1 := rfl
  cases n with
  | ofNat n =>
    have fits : n ≤ maxNat64 := by
      simp only [Int.ofNat_eq_natCast] at highest
      omega
    exact readNumber_toDigits fits breaks
  | negSucc n =>
    have fits : n + 1 ≤ maxNat64 := by omega
    have small : ¬(n + 1 = 0 ∨ 1 <<< 63 < n + 1) := by
      simp only [Nat.one_shiftLeft]
      omega
    have reads := readNumber_signed fits true breaks
    rw [integer, if_pos rfl, if_neg small] at reads
    exact reads

/-! ## Readers -/

/-- A label as a string, or as an object whose only member has that name and the value `null`. -/
inductive LabelText (label : String) : List Char → Prop
  | quoted {s : List Char} (text : StringText s label.toList) : LabelText label ('"' :: s)
  | wrapped {head b : List Char} (key : KeyText label head) (blank : Blank b) :
    LabelText label ('\x7b' :: (head ++ ("null".toList ++ (b ++ ['\x7d']))))

namespace Reader

variable {α β : Type}

/-- A reader that takes a text for a value. -/
def Takes (reader : Reader α) (v : List Char) (a : α) : Prop :=
  ∀ b rest, Blank b → Breaks rest → reader.run (b ++ (v ++ rest)) = .ok (a, rest)

/-- A reader that refuses a text. -/
def Fails (reader : Reader α) (v : List Char) : Prop :=
  ∀ b rest, Blank b → Breaks rest → ∃ e, reader.run (b ++ (v ++ rest)) = .error e

theorem Takes.check {reader : Reader α} {v : List Char} {a : α} (takes : reader.Takes v a)
    {f : α → Except Mismatch β} {c : β} (checked : f a = .ok c) :
    (reader.check f).Takes v c := by
  intro b rest blank breaks
  simp only [Reader.check, takes b rest blank breaks, checked]

theorem Takes.map {reader : Reader α} {v : List Char} {a : α} (takes : reader.Takes v a)
    (f : α → β) : (reader.map f).Takes v (f a) := takes.check rfl

theorem Fails.map {reader : Reader α} {v : List Char} (fails : reader.Fails v) (f : α → β) :
    (reader.map f).Fails v := by
  intro b rest blank breaks
  obtain ⟨e, failed⟩ := fails b rest blank breaks
  exact ⟨e, by simp only [Reader.map, Reader.check, failed]⟩

theorem takes_nat64 (expected : String) (n : UInt64) :
    (nat64 expected).Takes (Nat.toDigits 10 n.toNat) n := by
  have fits : n.toNat ≤ maxNat64 := Nat.le_of_lt_succ n.toNat_lt
  have token : token.Takes (Nat.toDigits 10 n.toNat) (.number (.nat n.toNat)) :=
    fun b rest blank breaks => nextToken_nat blank fits breaks
  exact token.check (congrArg Except.ok UInt64.ofNat_toNat)

theorem takes_bool (value : Bool) : bool.Takes (wordText value) value := by
  have token : token.Takes (wordText value) (.bool value) :=
    fun b rest blank _ => nextToken_bool blank value rest
  exact token.check rfl

theorem takes_string (expected : String) {s : List Char} {t : String}
    (text : StringText s t.toList) : (string expected).Takes ('"' :: s) t := by
  have token : token.Takes ('"' :: s) (.string t) := by
    intro b rest blank _
    have reads := nextToken_string blank text rest
    rwa [String.ofList_toList] at reads
  exact token.check rfl

theorem takes_optionalNat64_none (expected : String) :
    (optionalNat64 expected).Takes "null".toList none := by
  have token : token.Takes "null".toList .null := fun b rest blank _ => nextToken_null blank rest
  exact token.check rfl

theorem takes_optionalNat64_some (expected : String) (n : UInt64) :
    (optionalNat64 expected).Takes (Nat.toDigits 10 n.toNat) (some n) := by
  have fits : n.toNat ≤ maxNat64 := Nat.le_of_lt_succ n.toNat_lt
  have token : token.Takes (Nat.toDigits 10 n.toNat) (.number (.nat n.toNat)) :=
    fun b rest blank breaks => nextToken_nat blank fits breaks
  exact token.check (congrArg (fun m => Except.ok (some m)) UInt64.ofNat_toNat)

theorem quotedLabel_append {variants : List (String × α)} {s : List Char} {label : String} {a : α}
    (text : StringText s label.toList) (known : ofLabel variants label = .ok a)
    (rest : List Char) : quotedLabel variants (s ++ rest) = .ok (a, rest) := by
  rw [quotedLabel, readString_append text]
  dsimp only
  rw [String.ofList_toList, known]
  rfl

/-- A label is taken in either form. -/
theorem takes_label {variants : List (String × α)} {label : String} {a : α}
    (known : ofLabel variants label = .ok a) {v : List Char} (text : LabelText label v) :
    (Reader.label variants).Takes v a := by
  intro b rest blank breaks
  show readLabel variants (b ++ (v ++ rest)) = .ok (a, rest)
  rw [readLabel, skipSpace_append blank]
  cases text with
  | quoted text =>
    rw [List.cons_append, skipSpace_cons (by decide)]
    dsimp only
    rw [if_pos rfl, quotedLabel_append text known]
  | @wrapped head b' key blank' =>
    obtain ⟨c, s, c', c'', front, text, colon, value, rfl⟩ := key
    have regrouped : ('\x7b' :: ((c ++ '"' :: (s ++ (c' ++ ':' :: c''))) ++
        ("null".toList ++ (b' ++ ['\x7d']))) ++ rest) =
        '\x7b' :: (c ++ '"' :: (s ++ (c' ++ ':' :: (c'' ++ ("null".toList ++
          (b' ++ '\x7d' :: rest)))))) := by
      simp only [List.append_assoc, List.cons_append, List.nil_append]
    rw [regrouped, skipSpace_cons (by decide)]
    dsimp only
    rw [if_neg (by decide), if_pos rfl, wrappedLabel, skipMark_append front (by decide)]
    dsimp only
    rw [quotedLabel_append text known]
    dsimp only
    rw [skipMark_append colon (by decide)]
    dsimp only
    rw [nextToken_null value]
    dsimp only
    rw [skipMark_append blank' (by decide)]
    rfl

end Reader

end DirWatch.Json
