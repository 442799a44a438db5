import DirWatch.Proofs.Json.Grammar

/-!
# Skipping follows the grammar

Skipping a string, a number or a whole value takes exactly its text, whatever follows it
(`skipValue_append`). The stack of open brackets goes along with the grammar: a part of a value is
skipped in a state that depends on the innermost bracket only (`Part.Skips`).
-/

namespace DirWatch.Json

/-! ## Blanks and words -/

@[simp] theorem skipSpace_append {b : List Char} (blank : Blank b) (s : List Char) :
    skipSpace (b ++ s) = skipSpace s := List.dropWhile_append_of_pos blank

theorem skipSpace_cons {c : Char} (mark : isSpace c = false) (s : List Char) :
    skipSpace (c :: s) = c :: s := List.dropWhile_cons_of_neg (by simp [mark])

theorem skipMark_append {b : List Char} (blank : Blank b) {mark : Char}
    (visible : isSpace mark = false) (s : List Char) : skipMark mark (b ++ mark :: s) = .ok s := by
  rw [skipMark, skipSpace_append blank, skipSpace_cons visible]
  dsimp only
  rw [if_pos rfl]

theorem skipWord_append (word s : List Char) : skipWord word (word ++ s) = .ok s := by
  induction word with
  | nil => rw [List.nil_append, skipWord]
  | cons c word ih => rw [List.cons_append, skipWord, if_pos rfl, ih]

/-! ## Strings -/

theorem readUnit_append {digits : List Char} {n : Nat} (unit : UnitText digits n)
    (s : List Char) : readUnit (digits ++ s) = .ok (n, s) := by
  obtain ⟨length, value⟩ := unit
  match digits with
  | [a, b, c, d] =>
    rw [List.cons_append, List.cons_append, List.cons_append, List.cons_append, List.nil_append,
      readUnit, value]

theorem ne_u_of_shortEscape {c e : Char} (escape : shortEscape? c = some e) : c ≠ 'u' := by
  rintro rfl
  simp [shortEscape?] at escape

theorem skipEscape_short {c e : Char} (escape : shortEscape? c = some e) (s : List Char) :
    skipEscape (c :: s) = .ok s := by
  rw [skipEscape.eq_def]
  split
  · next nothing => contradiction
  · next front => exact absurd (List.cons.inj front).1 (ne_u_of_shortEscape escape)
  · next front =>
    obtain ⟨rfl, rfl⟩ := List.cons.inj front
    rw [escape]
    rfl

theorem skipString_append {s : List Char} (string : StringLike s) (rest : List Char) :
    skipString (s ++ rest) = .ok rest := by
  induction string with
  | close => rw [List.singleton_append, skipString, if_pos rfl]
  | plain quote backslash printable _ ih =>
    rw [List.cons_append, skipString, if_neg quote, if_neg backslash,
      if_neg (Nat.not_lt.mpr printable), ih]
  | @short c e s escape _ ih =>
    rw [List.cons_append, List.cons_append, skipString, if_neg (by decide), if_pos rfl,
      skipEscape_short escape]
    exact ih
  | @unit n digits s unit _ ih =>
    have escapes : skipEscape ('u' :: (digits ++ (s ++ rest))) = .ok (s ++ rest) := by
      simp only [skipEscape, readUnit_append unit]
    rw [List.cons_append, List.cons_append, List.append_assoc, skipString, if_neg (by decide),
      if_pos rfl, escapes]
    exact ih

/-! ## Numbers -/

theorem takeDigits_append {ds rest : List Char} (digits : ∀ d ∈ ds, d.isDigit = true)
    (ends : ∀ c ∈ rest.head?, c.isDigit = false) : takeDigits (ds ++ rest) = (ds, rest) := by
  have stops : rest.takeWhile Char.isDigit = [] ∧ rest.dropWhile Char.isDigit = rest := by
    cases rest with
    | nil => exact ⟨rfl, rfl⟩
    | cons c rest =>
      have front := ends c rfl
      exact ⟨List.takeWhile_cons_of_neg (by simp [front]),
        List.dropWhile_cons_of_neg (by simp [front])⟩
  rw [takeDigits, List.takeWhile_append_of_pos digits, List.dropWhile_append_of_pos digits,
    stops.1, stops.2, List.append_nil]

theorem skipDigits_of_takeDigits {ds s rest : List Char} (digits : takeDigits s = (ds, rest))
    (some_digit : ds ≠ []) : skipDigits s = .ok rest := by
  rw [skipDigits, digits]
  match ds with
  | [] => exact absurd rfl some_digit
  | _ :: _ => rfl

theorem skipDigits_append {ds rest : List Char} (digits : Digits ds)
    (ends : ∀ c ∈ rest.head?, c.isDigit = false) : skipDigits (ds ++ rest) = .ok rest :=
  skipDigits_of_takeDigits (takeDigits_append digits.2 ends) digits.1

theorem skipExponent_append {e rest : List Char} (exponent : ExponentText e)
    (breaks : Breaks rest) : skipExponent (e ++ rest) = .ok rest := by
  cases exponent with
  | none =>
    rw [List.nil_append, skipExponent.eq_def]
    match rest with
    | [] => rfl
    | c :: r =>
      obtain ⟨-, -, lower, upper⟩ := breaks c rfl
      simp only [lower, upper, or_self, if_false]
  | @some c sign ds mark signed digits =>
    have skips := skipDigits_append digits breaks.no_digit
    rw [List.cons_append, List.append_assoc, skipExponent.eq_def]
    dsimp only
    rw [if_pos mark]
    rcases signed with rfl | rfl | rfl
    · -- where no sign stands, the first digit is not taken for one
      obtain ⟨d, ds, rfl⟩ := List.exists_cons_of_ne_nil digits.1
      have digit := digits.2 d List.mem_cons_self
      rw [List.nil_append]
      split
      · next front =>
        obtain ⟨rfl, -⟩ := List.cons.inj front
        exact absurd digit (by decide)
      · next front =>
        obtain ⟨rfl, -⟩ := List.cons.inj front
        exact absurd digit (by decide)
      · exact skips
    · exact skips
    · exact skips

theorem skipFraction_append {f rest : List Char} (fraction : FractionText f)
    (breaks : Breaks rest) : skipFraction (f ++ rest) = .ok rest := by
  cases fraction with
  | none exponent =>
    have skips := skipExponent_append exponent breaks
    have point : ∀ r, f ++ rest ≠ '.' :: r := by
      intro r front
      cases exponent with
      | none =>
        rw [List.nil_append] at front
        have ends := breaks '.' (by rw [front]; rfl)
        exact ends.2.1 rfl
      | some mark signed digits =>
        obtain ⟨rfl, -⟩ := List.cons.inj front
        exact absurd mark (by decide)
    rw [skipFraction.eq_def]
    split
    · next r front => exact absurd front (point r)
    · exact skips
  | @some ds e digits exponent =>
    have ends := (FractionText.none exponent).no_digit breaks
    rw [List.cons_append, List.append_assoc, skipFraction, skipDigits_append digits ends]
    exact skipExponent_append exponent breaks

/-- Skipping what a number has after its sign. -/
theorem skipNumber_unsigned {n f rest : List Char} (integer : IntegerText n)
    (fraction : FractionText f) (breaks : Breaks rest) {s : List Char}
    (unsigned : dropMinus s = n ++ (f ++ rest)) : skipNumber s = .ok rest := by
  have skips := skipFraction_append fraction breaks
  have ends := fraction.no_digit breaks
  rw [skipNumber, unsigned]
  cases integer with
  | zero =>
    -- after a zero comes the fraction, not another digit
    have none_left : takeDigits ([] ++ (f ++ rest)) = ([], f ++ rest) :=
      takeDigits_append (by simp) ends
    rw [List.nil_append] at none_left
    rw [List.singleton_append]
    dsimp only
    rw [if_pos rfl, none_left]
    exact skips
  | positive leading first others =>
    rw [List.cons_append]
    dsimp only
    rw [if_neg leading, if_pos first, takeDigits_append others ends]
    exact skips

theorem skipNumber_append {s rest : List Char} (number : NumberText s) (breaks : Breaks rest) :
    skipNumber (s ++ rest) = .ok rest := by
  cases number with
  | @unsigned n f integer fraction =>
    apply skipNumber_unsigned integer fraction breaks
    obtain ⟨d, ds, rfl, first⟩ := integer.first_digit
    have minus : d ≠ '-' := by
      rintro rfl
      exact absurd first (by decide)
    rw [List.append_assoc, List.cons_append, dropMinus.eq_def]
    split
    · next front => exact absurd (List.cons.inj front).1 minus
    · rfl
  | negative integer fraction =>
    apply skipNumber_unsigned integer fraction breaks
    rw [List.cons_append, List.append_assoc]
    rfl

/-! ## Values -/

theorem skipItemHead_append {frame : Frame} {head : List Char} (text : HeadText frame head)
    (s : List Char) : ∃ b, Blank b ∧ skipItemHead frame (head ++ s) = .ok (b ++ s) := by
  cases text with
  | array blank => exact ⟨_, blank, rfl⟩
  | @object b key b' b'' blank string blank' blank'' =>
    refine ⟨b'', blank'', ?_⟩
    have regrouped : (b ++ '"' :: (key ++ (b' ++ ':' :: b''))) ++ s =
        b ++ '"' :: (key ++ (b' ++ ':' :: (b'' ++ s))) := by
      simp only [List.append_assoc, List.cons_append]
    rw [regrouped, skipItemHead, skipKey, skipMark_append blank (by decide)]
    dsimp only
    rw [skipString_append string]
    exact skipMark_append blank' (by decide) _

/-- What walking over a part of a value comes to. -/
def Part.Skips : Part → List Char → Prop
  | .value, s => ∀ stack b rest, Blank b → Breaks rest →
    skipFrom .value stack (b ++ (s ++ rest)) = skipFrom .ended stack rest
  | .opened frame, s => ∀ stack rest,
    skipFrom .opened (frame :: stack) (s ++ rest) = skipFrom .ended stack rest
  | .ended frame, s => ∀ stack rest,
    skipFrom .ended (frame :: stack) (s ++ rest) = skipFrom .ended stack rest

theorem skipFront_number {b s rest : List Char} (blank : Blank b) (number : NumberText s)
    (breaks : Breaks rest) : skipFront (b ++ (s ++ rest)) = .ok (none, rest) := by
  have skips := skipNumber_append number breaks
  obtain ⟨c, r, rfl, front⟩ := number.front
  obtain ⟨null, yes, no, quote, bracket, brace, visible, -⟩ := ne_of_number_front front
  rw [skipFront, skipSpace_append blank, List.cons_append, skipSpace_cons visible]
  rw [List.cons_append] at skips
  dsimp only
  rw [if_neg null, if_neg yes, if_neg no, if_neg quote, if_neg bracket, if_neg brace,
    if_pos (by simpa using front), skips]
  rfl

theorem skipFront_string {b s rest : List Char} (blank : Blank b) (string : StringLike s) :
    skipFront (b ++ ('"' :: s ++ rest)) = .ok (none, rest) := by
  rw [skipFront, skipSpace_append blank, List.cons_append, skipSpace_cons (by decide)]
  dsimp only
  rw [if_neg (by decide), if_neg (by decide), if_neg (by decide), if_pos rfl,
    skipString_append string]
  rfl

theorem skipFront_null {b : List Char} (blank : Blank b) (rest : List Char) :
    skipFront (b ++ ("null".toList ++ rest)) = .ok (none, rest) := by
  have word : skipSpace ("null".toList ++ rest) = 'n' :: ("ull".toList ++ rest) :=
    skipSpace_cons (by decide) _
  rw [skipFront, skipSpace_append blank, word]
  dsimp only
  rw [if_pos rfl, skipWord_append]
  rfl

theorem skipFront_bool {b : List Char} (blank : Blank b) (value : Bool) (rest : List Char) :
    skipFront (b ++ (wordText value ++ rest)) = .ok (none, rest) := by
  rw [skipFront, skipSpace_append blank]
  cases value with
  | true =>
    have word : skipSpace (wordText true ++ rest) = 't' :: ("rue".toList ++ rest) :=
      skipSpace_cons (by decide) _
    rw [word]
    dsimp only
    rw [if_neg (by decide), if_pos rfl, skipWord_append]
    rfl
  | false =>
    have word : skipSpace (wordText false ++ rest) = 'f' :: ("alse".toList ++ rest) :=
      skipSpace_cons (by decide) _
    rw [word]
    dsimp only
    rw [if_neg (by decide), if_neg (by decide), if_pos rfl, skipWord_append]
    rfl

theorem skipFront_bracket {b : List Char} (blank : Blank b) (frame : Frame) (rest : List Char) :
    skipFront (b ++ frame.opening :: rest) = .ok (some frame, rest) := by
  rw [skipFront, skipSpace_append blank]
  cases frame with
  | array =>
    rw [skipSpace_cons (by decide)]
    rfl
  | object =>
    rw [skipSpace_cons (by decide)]
    rfl

/-! ### The walk, state by state -/

theorem skipFrom_value (stack : List Frame) (s : List Char) :
    skipFrom .value stack s = match skipFront s with
      | .error e => .error e
      | .ok (none, r) => skipFrom .ended stack r
      | .ok (some frame, r) => skipFrom .opened (frame :: stack) r := by
  conv => lhs; rw [skipFrom]
  split
  · next failed => rw [failed]
  · next skipped => rw [skipped]
  · next opened => rw [opened]

theorem skipFrom_opened (frame : Frame) (stack : List Frame) (s : List Char) :
    skipFrom .opened (frame :: stack) s = match skipSpace s with
      | [] => .error .truncated
      | c :: r =>
        if c = frame.closing then skipFrom .ended stack r
        else match skipItemHead frame s with
          | .error e => .error e
          | .ok r => skipFrom .value (frame :: stack) r := by
  conv => lhs; rw [skipFrom]
  split
  · next nothing => rw [nothing]
  · next front =>
    rw [front]
    dsimp only
    split
    · rfl
    · split
      · next failed => rw [failed]
      · next skipped => rw [skipped]

theorem skipFrom_ended (frame : Frame) (stack : List Frame) (s : List Char) :
    skipFrom .ended (frame :: stack) s = match skipSpace s with
      | [] => .error .truncated
      | c :: r =>
        if c = ',' then match skipItemHead frame r with
          | .error e => .error e
          | .ok r => skipFrom .value (frame :: stack) r
        else if c = frame.closing then skipFrom .ended stack r
        else .error .malformed := by
  conv => lhs; rw [skipFrom]
  split
  · next nothing => rw [nothing]
  · next front =>
    rw [front]
    dsimp only
    split
    · split
      · next failed => rw [failed]
      · next skipped => rw [skipped]
    · rfl

/-! ### The walk follows the grammar -/

/-- A scalar is skipped as a whole. -/
theorem skipFrom_scalar {stack : List Frame} {s rest : List Char}
    (front : skipFront s = .ok (none, rest)) :
    skipFrom .value stack s = skipFrom .ended stack rest := by
  rw [skipFrom_value, front]

theorem isSpace_closing (frame : Frame) : isSpace frame.closing = false := by
  cases frame <;> decide

/-- An item that follows the opening bracket. -/
theorem skipFrom_first {frame : Frame} {head v : List Char} (head_text : HeadText frame head)
    (value : ValueText v) (stack : List Frame) (rest : List Char) :
    ∃ b, Blank b ∧ skipFrom .opened (frame :: stack) (head ++ (v ++ rest)) =
      skipFrom .value (frame :: stack) (b ++ (v ++ rest)) := by
  obtain ⟨b, blank, heads⟩ := skipItemHead_append head_text (v ++ rest)
  refine ⟨b, blank, ?_⟩
  -- neither a key nor a value begins with the closing bracket
  obtain ⟨c, r, front, other⟩ : ∃ c r, skipSpace (head ++ (v ++ rest)) = c :: r ∧
      c ≠ frame.closing := by
    cases head_text with
    | array blank =>
      obtain ⟨c, r, rfl, visible, other⟩ := value.front
      exact ⟨c, r ++ rest, by rw [skipSpace_append blank, List.cons_append, skipSpace_cons visible],
        other _⟩
    | object blank =>
      rw [List.append_assoc, skipSpace_append blank, List.cons_append,
        skipSpace_cons (by decide)]
      exact ⟨'"', _, rfl, by decide⟩
  rw [skipFrom_opened, front]
  dsimp only
  rw [if_neg other, heads]

/-- An item that follows another one. -/
theorem skipFrom_next {frame : Frame} {b head : List Char} (blank : Blank b)
    (head_text : HeadText frame head) (stack : List Frame) (s : List Char) :
    ∃ b', Blank b' ∧ skipFrom .ended (frame :: stack) (b ++ ',' :: (head ++ s)) =
      skipFrom .value (frame :: stack) (b' ++ s) := by
  obtain ⟨b', blank', heads⟩ := skipItemHead_append head_text s
  refine ⟨b', blank', ?_⟩
  have front : skipSpace (b ++ ',' :: (head ++ s)) = ',' :: (head ++ s) := by
    rw [skipSpace_append blank, skipSpace_cons (by decide)]
  rw [skipFrom_ended, front]
  dsimp only
  rw [if_pos rfl, heads]

theorem skipFrom_close {stack : List Frame} {frame : Frame} {b : List Char} (blank : Blank b)
    (rest : List Char) :
    skipFrom .opened (frame :: stack) (b ++ frame.closing :: rest) = skipFrom .ended stack rest ∧
      skipFrom .ended (frame :: stack) (b ++ frame.closing :: rest) =
        skipFrom .ended stack rest := by
  have front : skipSpace (b ++ frame.closing :: rest) = frame.closing :: rest := by
    rw [skipSpace_append blank, skipSpace_cons (isSpace_closing frame)]
  have no_comma : frame.closing ≠ ',' := by cases frame <;> decide
  constructor
  · rw [skipFrom_opened, front]
    dsimp only
    rw [if_pos rfl]
  · rw [skipFrom_ended, front]
    dsimp only
    rw [if_neg no_comma, if_pos rfl]

/-- Walking over a part of a value takes its text and nothing else. -/
theorem Grammar.skips {part : Part} {s : List Char} (text : Grammar part s) : part.Skips s := by
  induction text with
  | null => exact fun stack b rest blank _ => skipFrom_scalar (skipFront_null blank rest)
  | bool value => exact fun stack b rest blank _ => skipFrom_scalar (skipFront_bool blank value rest)
  | number number =>
    exact fun stack b rest blank breaks => skipFrom_scalar (skipFront_number blank number breaks)
  | string string => exact fun stack b rest blank _ => skipFrom_scalar (skipFront_string blank string)
  | @bracket frame s _ ih =>
    intro stack b rest blank _
    rw [List.cons_append, skipFrom_value, skipFront_bracket blank frame (s ++ rest)]
    exact ih stack rest
  | @empty frame b blank =>
    intro stack rest
    rw [List.append_assoc]
    exact (skipFrom_close blank rest).1
  | @first frame head v s head_text value more ih_value ih =>
    -- the value of the item is walked over with the frame on the stack
    intro stack rest
    obtain ⟨b, blank, item⟩ := skipFrom_first head_text value stack (s ++ rest)
    rw [List.append_assoc, List.append_assoc, item,
      ih_value (frame :: stack) b (s ++ rest) blank (more.breaks rest)]
    exact ih stack rest
  | @last frame b blank =>
    intro stack rest
    rw [List.append_assoc]
    exact (skipFrom_close blank rest).2
  | @next frame b head v s blank head_text value more ih_value ih =>
    intro stack rest
    obtain ⟨b', blank', item⟩ := skipFrom_next blank head_text stack (v ++ (s ++ rest))
    rw [List.append_assoc, List.cons_append, List.append_assoc, List.append_assoc, item,
      ih_value (frame :: stack) b' (s ++ rest) blank' (more.breaks rest)]
    exact ih stack rest

/-- Skipping a value takes the blanks before it and its text. -/
theorem skipValue_append {b v rest : List Char} (blank : Blank b) (value : ValueText v)
    (breaks : Breaks rest) : skipValue (b ++ (v ++ rest)) = .ok rest := by
  have skips : skipFrom .value [] (b ++ (v ++ rest)) = skipFrom .ended [] rest :=
    value.skips [] b rest blank breaks
  rw [skipValue, skips, skipFrom]

end DirWatch.Json
