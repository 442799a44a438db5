import DirWatch.Json.Shape
import DirWatch.Proofs.Json.Skipping

/-!
# Reading takes what skipping takes

A reader that succeeds has taken exactly the value that skipping would have taken
(`Reader.Exact`). So it never matters for what follows a value whether the value was read or
skipped; `Shape.exact` says it of structures whose members are read so.
-/

namespace DirWatch.Json

/-! ## Strings -/

theorem skipString_unit {s r : List Char} {n : Nat} (unit : readUnit s = .ok (n, r)) :
    skipString ('\\' :: 'u' :: s) = skipString r := by
  have escapes : skipEscape ('u' :: s) = .ok r := by simp only [skipEscape, unit]
  rw [skipString, if_neg (by decide), if_pos rfl, escapes]

theorem skipString_short {c e : Char} (escape : shortEscape? c = some e) (s : List Char) :
    skipString ('\\' :: c :: s) = skipString s := by
  rw [skipString, if_neg (by decide), if_pos rfl, skipEscape_short escape]

/-- Skipping goes on where reading an escape does, also behind a pair. -/
theorem skipString_of_readEscape {s r : List Char} {c : Char} (escape : readEscape s = .ok (c, r)) :
    skipString ('\\' :: s) = skipString r := by
  unfold readEscape at escape
  split at escape
  · contradiction
  · next t =>
    unfold readUnicode at escape
    split at escape
    · contradiction
    · next n t' first =>
      rw [skipString_unit first]
      split at escape
      · contradiction
      · split at escape
        · split at escape
          · contradiction
          · contradiction
          · next t'' =>
            split at escape
            · contradiction
            · next m t''' second =>
              rw [skipString_unit second]
              split at escape
              · rw [(Prod.mk.inj (Except.ok.inj escape)).2]
              · contradiction
          · contradiction
        · rw [(Prod.mk.inj (Except.ok.inj escape)).2]
  · next d t _ =>
    split at escape
    · next e short =>
      rw [skipString_short short, (Prod.mk.inj (Except.ok.inj escape)).2]
    · contradiction

theorem skipString_of_readString {s t r : List Char} (reads : readString s = .ok (t, r)) :
    skipString s = .ok r := by
  fun_induction readString s generalizing t r with
  | case1 => contradiction
  | case2 => rw [skipString, if_pos rfl, (Prod.mk.inj (Except.ok.inj reads)).2]
  | case3 => contradiction
  | case4 => contradiction
  | case5 u e rest escape t' rest' inner _ ih =>
    rw [skipString_of_readEscape escape, ih inner, (Prod.mk.inj (Except.ok.inj reads)).2]
  | case6 => contradiction
  | case7 => contradiction
  | case8 c u quote backslash control t' rest' inner ih =>
    rw [skipString, if_neg quote, if_neg backslash, if_neg control, ih inner,
      (Prod.mk.inj (Except.ok.inj reads)).2]

/-! ## Numbers -/

theorem skipExponent_of_readExponent {n : Nat} {e : Int} {s r : List Char} {v : Number}
    (reads : readExponent n e s = .ok (v, r)) : skipExponent s = .ok r := by
  unfold readExponent at reads
  unfold skipExponent
  split at reads
  · rw [floatIn_eq reads]
  · next c t =>
    split at reads
    · next mark =>
      dsimp only
      rw [if_pos mark]
      split at reads
      next negative u signed =>
      have skips : skipDigits u = .ok r := by
        split at reads
        · contradiction
        · next ds rest some_digits digits =>
          rw [skipDigits_of_takeDigits digits some_digits, floatIn_eq reads]
      split at signed
      · obtain ⟨-, rfl⟩ := Prod.mk.inj signed
        exact skips
      · obtain ⟨-, rfl⟩ := Prod.mk.inj signed
        exact skips
      · next t minus plus =>
        obtain ⟨-, rfl⟩ := Prod.mk.inj signed
        exact skips
    · next no_mark =>
      dsimp only
      rw [if_neg no_mark, floatIn_eq reads]

theorem skipFraction_of_readFraction {negative : Bool} {n left : Nat} {s r : List Char} {v : Number}
    (reads : readFraction negative n left s = .ok (v, r)) : skipFraction s = .ok r := by
  unfold readFraction at reads
  split at reads
  · next t =>
    split at reads
    · contradiction
    · next ds rest some_digits digits =>
      rw [skipFraction, skipDigits_of_takeDigits digits some_digits]
      exact skipExponent_of_readExponent reads
  · next c t no_point =>
    have same : skipFraction (c :: t) = skipExponent (c :: t) := by
      rw [skipFraction.eq_def]
      split
      · next u front => exact absurd (List.cons.inj front).1 no_point
      · rfl
    rw [same]
    split at reads
    · exact skipExponent_of_readExponent reads
    · next no_exponent =>
      have no_mark : ¬(c = 'e' ∨ c = 'E') := fun mark =>
        no_exponent (mark.imp_right Or.inl)
      rw [skipExponent.eq_def]
      dsimp only
      rw [if_neg no_mark, (Prod.mk.inj (Except.ok.inj reads)).2]
  · split at reads
    · rw [floatIn_eq reads]
      rfl
    · rw [← (Prod.mk.inj (Except.ok.inj reads)).2]
      rfl

theorem skipNumber_of_readNumber {s r : List Char} {v : Number}
    (reads : readNumber s = .ok (v, r)) :
    skipNumber s = .ok r := by
  unfold readNumber at reads
  split at reads
  next negative t signed =>
  have unsigned : dropMinus s = t := by
    split at signed
    · exact (Prod.mk.inj signed).2
    · next no_minus =>
      rw [dropMinus.eq_def]
      split
      · next u => exact absurd rfl (no_minus u)
      · exact (Prod.mk.inj signed).2
  rw [skipNumber, unsigned]
  split at reads
  · contradiction
  · next c u =>
    split at reads
    · next zero =>
      rw [if_pos zero]
      split at reads
      · exact skipFraction_of_readFraction reads
      · contradiction
    · next not_zero =>
      split at reads
      · next digit =>
        rw [if_neg not_zero, if_pos digit]
        exact skipFraction_of_readFraction reads
      · contradiction

/-! ## Tokens -/

/-- The frame that a token opens. -/
def Token.frame? : Token → Option Frame
  | .array => some .array
  | .object => some .object
  | _ => none

theorem skipFront_of_nextToken {s r : List Char} {t : Token} (reads : nextToken s = .ok (t, r)) :
    skipFront s = .ok (t.frame?, r) := by
  unfold nextToken at reads
  unfold skipFront
  cases front : skipSpace s with
  | nil =>
    rw [front] at reads
    contradiction
  | cons c u =>
    rw [front] at reads
    dsimp only at reads ⊢
    repeat' split at reads
    case _ null =>
      obtain ⟨v, word, eq⟩ := ok_of_map_eq_ok reads
      obtain ⟨rfl, rfl⟩ := Prod.mk.inj eq
      simp only [null, if_pos, word]
      rfl
    case _ yes =>
      obtain ⟨v, word, eq⟩ := ok_of_map_eq_ok reads
      obtain ⟨rfl, rfl⟩ := Prod.mk.inj eq
      simp_all [Except.map, Token.frame?]
    case _ no =>
      obtain ⟨v, word, eq⟩ := ok_of_map_eq_ok reads
      obtain ⟨rfl, rfl⟩ := Prod.mk.inj eq
      simp_all [Except.map, Token.frame?]
    case _ quote =>
      obtain ⟨v, text, eq⟩ := ok_of_map_eq_ok reads
      obtain ⟨rfl, rfl⟩ := Prod.mk.inj eq
      have skips := skipString_of_readString text
      simp_all [Except.map, Token.frame?]
    case _ bracket =>
      obtain ⟨rfl, rfl⟩ := Prod.mk.inj (Except.ok.inj reads)
      simp_all [Token.frame?]
    case _ brace =>
      obtain ⟨rfl, rfl⟩ := Prod.mk.inj (Except.ok.inj reads)
      simp_all [Token.frame?]
    case _ digit =>
      obtain ⟨v, number, eq⟩ := ok_of_map_eq_ok reads
      obtain ⟨rfl, rfl⟩ := Prod.mk.inj eq
      have skips := skipNumber_of_readNumber number
      simp_all [Except.map, Token.frame?]
    case _ => contradiction

theorem skipMark_eq_ok {mark : Char} {s r : List Char} (marks : skipMark mark s = .ok r) :
    skipSpace s = mark :: r := by
  unfold skipMark at marks
  split at marks
  · contradiction
  · next c u front =>
    split at marks
    · next same => rw [front, same, Except.ok.inj marks]
    · contradiction

/-- A walk that ends does the same inside further brackets, where it goes on afterwards. -/
theorem skipFrom_inside {stage : Stage} {stack : List Frame} {s r : List Char}
    (skips : skipFrom stage stack s = .ok r) (begun : stage = .opened → stack ≠ [])
    (outer : List Frame) : skipFrom stage (stack ++ outer) s = skipFrom .ended outer r := by
  fun_induction skipFrom stage stack s with
  | case1 => contradiction
  | case2 stack s t front ih =>
    rw [skipFrom_value, front]
    exact ih skips (by simp)
  | case3 stack s frame t front ih =>
    rw [skipFrom_value, front]
    exact ih skips (by simp)
  | case4 => exact absurd rfl (begun rfl)
  | case5 => contradiction
  | case6 s frame stack t front ih =>
    rw [List.cons_append, skipFrom_opened, front]
    dsimp only
    rw [if_pos rfl]
    exact ih skips (by simp)
  | case7 => contradiction
  | case8 s frame stack c u front other t head ih =>
    rw [List.cons_append, skipFrom_opened, front]
    dsimp only
    rw [if_neg other, head]
    exact ih skips (by simp)
  | case9 s =>
    obtain rfl := Except.ok.inj skips
    rfl
  | case10 => contradiction
  | case11 => contradiction
  | case12 s frame stack u t head front ih =>
    rw [List.cons_append, skipFrom_ended, front]
    dsimp only
    rw [if_pos rfl, head]
    exact ih skips (by simp)
  | case13 s frame stack u front no_comma ih =>
    rw [List.cons_append, skipFrom_ended, front]
    dsimp only
    rw [if_neg no_comma, if_pos rfl]
    exact ih skips (by simp)
  | case14 => contradiction

/-! ## Readers -/

namespace Reader

variable {α β : Type}

/-- A reader that takes exactly what skipping takes, if it succeeds. -/
def Exact (reader : Reader α) : Prop :=
  ∀ s a r, reader.run s = .ok (a, r) → skipValue s = .ok r

/-- A value that is read inside brackets is skipped there. -/
theorem Exact.inside {reader : Reader α} (exact : reader.Exact) {s r : List Char} {a : α}
    (reads : reader.run s = .ok (a, r)) (stack : List Frame) :
    skipFrom .value stack s = skipFrom .ended stack r :=
  skipFrom_inside (exact s a r reads) (by simp) stack

theorem check_eq_ok {reader : Reader α} {f : α → Except Mismatch β} {s r : List Char} {b : β}
    (reads : (reader.check f).run s = .ok (b, r)) :
    ∃ a, reader.run s = .ok (a, r) ∧ f a = .ok b := by
  simp only [check] at reads
  split at reads
  · contradiction
  · next a t inner =>
    split at reads
    · contradiction
    · next b' checked =>
      obtain ⟨rfl, rfl⟩ := Prod.mk.inj (Except.ok.inj reads)
      exact ⟨a, inner, checked⟩

theorem map_eq_ok {reader : Reader α} {f : α → β} {s r : List Char} {b : β}
    (reads : (reader.map f).run s = .ok (b, r)) : ∃ a, reader.run s = .ok (a, r) ∧ f a = b := by
  obtain ⟨a, inner, checked⟩ := check_eq_ok reads
  exact ⟨a, inner, Except.ok.inj checked⟩

theorem Exact.check {reader : Reader α} (exact : reader.Exact) (f : α → Except Mismatch β) :
    (reader.check f).Exact := by
  intro s b r reads
  obtain ⟨a, inner, -⟩ := check_eq_ok reads
  exact exact s a r inner

theorem Exact.map {reader : Reader α} (exact : reader.Exact) (f : α → β) :
    (reader.map f).Exact := exact.check _

/-- A scalar is taken as a whole. -/
theorem exact_scalar {f : Token → Except Mismatch α}
    (scalar : ∀ t a, f t = .ok a → t.frame? = none) : (token.check f).Exact := by
  intro s a r reads
  obtain ⟨t, front, checked⟩ := check_eq_ok reads
  have skips := skipFront_of_nextToken front
  rw [scalar t a checked] at skips
  rw [skipValue, skipFrom_scalar skips, skipFrom]

theorem exact_nat64 (expected : String) : (nat64 expected).Exact := by
  apply exact_scalar
  intro t n checked
  split at checked
  · rfl
  · contradiction
  · contradiction

theorem exact_bool : bool.Exact := by
  apply exact_scalar
  intro t b checked
  split at checked
  · rfl
  · contradiction

theorem exact_string (expected : String) : (string expected).Exact := by
  apply exact_scalar
  intro t s checked
  split at checked
  · rfl
  · contradiction

theorem exact_optionalNat64 (expected : String) : (optionalNat64 expected).Exact := by
  apply exact_scalar
  intro t n checked
  split at checked
  · rfl
  · rfl
  · contradiction
  · contradiction

theorem exact_optionalInt32 : optionalInt32.Exact := by
  apply exact_scalar
  intro t n checked
  split at checked
  · rfl
  · rfl
  · rfl
  · contradiction

/-! ### Labels -/

theorem quotedLabel_eq_ok {variants : List (String × α)} {s r : List Char} {a : α}
    (reads : quotedLabel variants s = .ok (a, r)) : skipString s = .ok r := by
  unfold quotedLabel at reads
  split at reads
  · contradiction
  · next text u inner =>
    obtain ⟨b, -, eq⟩ := ok_of_map_eq_ok reads
    obtain ⟨-, rfl⟩ := Prod.mk.inj eq
    exact skipString_of_readString inner

/-- A label in braces is a key with a colon, a word and the closing brace. -/
theorem wrappedLabel_eq_ok {variants : List (String × α)} {s r : List Char} {a : α}
    (reads : wrappedLabel variants s = .ok (a, r)) (stack : List Frame) :
    skipFrom .opened (.object :: stack) s = skipFrom .ended stack r := by
  unfold wrappedLabel at reads
  split at reads
  · contradiction
  · next t quote =>
    split at reads
    · contradiction
    · next label u text =>
      split at reads
      · contradiction
      · next v colon =>
        split at reads
        · contradiction
        · next w null =>
          obtain ⟨x, brace, eq⟩ := ok_of_map_eq_ok reads
          obtain ⟨-, rfl⟩ := Prod.mk.inj eq
          have key : skipItemHead .object s = .ok v := by
            rw [skipItemHead, skipKey, quote]
            dsimp only
            rw [quotedLabel_eq_ok text]
            exact colon
          rw [skipFrom_opened, skipMark_eq_ok quote]
          dsimp only
          rw [if_neg (by decide), key]
          dsimp only
          rw [skipFrom_scalar (skipFront_of_nextToken null), skipFrom_ended, skipMark_eq_ok brace]
          dsimp only
          rw [if_neg (by decide)]
          exact if_pos rfl
        · contradiction

theorem exact_label (variants : List (String × α)) : (label variants).Exact := by
  intro s a r reads
  replace reads : readLabel variants s = .ok (a, r) := reads
  unfold readLabel at reads
  split at reads
  · contradiction
  · next c u front =>
    split at reads
    · next quote =>
      have skips : skipFront s = .ok (none, r) := by
        simp [skipFront, front, quote, quotedLabel_eq_ok reads, Except.map]
      rw [skipValue, skipFrom_scalar skips, skipFrom]
    · split at reads
      · next brace =>
        have opens : skipFront s = .ok (some .object, u) := by
          simp [skipFront, front, brace]
        rw [skipValue, skipFrom_value, opens]
        exact (wrappedLabel_eq_ok reads []).trans (by rw [skipFrom])
      · contradiction

end Reader

/-! ## Structures -/

namespace Shape

variable {σ α : Type}

/-- Where a walk stands in an object or an array; `fresh` says that no item stands before. -/
def place (fresh : Bool) : Stage := if fresh then .opened else .ended

/-- The walk at the end of an object or an array. -/
theorem skipFrom_place_close (fresh : Bool) {frame : Frame} {s r : List Char}
    (front : skipSpace s = frame.closing :: r) (stack : List Frame) :
    skipFrom (place fresh) (frame :: stack) s = skipFrom .ended stack r := by
  have no_comma : frame.closing ≠ ',' := by cases frame <;> decide
  cases fresh with
  | true =>
    show skipFrom .opened _ _ = _
    rw [skipFrom_opened, front]
    dsimp only
    rw [if_pos rfl]
  | false =>
    show skipFrom .ended _ _ = _
    rw [skipFrom_ended, front]
    dsimp only
    rw [if_neg no_comma, if_pos rfl]

/-- A key that is read is skipped, with its colon. -/
theorem skipFrom_place_key {fresh : Bool} {s t u : List Char} {key : String}
    (reads : nextKey fresh s = .ok (some key, t)) (colon : skipMark ':' t = .ok u)
    (stack : List Frame) :
    skipFrom (place fresh) (.object :: stack) s = skipFrom .value (.object :: stack) u := by
  unfold nextKey at reads
  split at reads
  · contradiction
  · next c v front =>
    split at reads
    · simp at reads
    · next no_brace =>
      have not_closing : c ≠ Frame.object.closing := no_brace
      cases fresh with
      | true =>
        rw [if_pos rfl] at reads
        split at reads
        · next quote =>
          obtain ⟨⟨text, w⟩, inner, eq⟩ := ok_of_map_eq_ok reads
          obtain ⟨-, rfl⟩ := Prod.mk.inj eq
          have head : skipItemHead .object s = .ok u := by
            rw [skipItemHead, skipKey, skipMark, front]
            dsimp only
            rw [if_pos quote]
            dsimp only
            rw [skipString_of_readString inner]
            exact colon
          show skipFrom .opened _ _ = _
          rw [skipFrom_opened, front]
          dsimp only
          rw [if_neg not_closing, head]
        · contradiction
      | false =>
        rw [if_neg (by decide)] at reads
        split at reads
        · next comma =>
          split at reads
          · contradiction
          · next w quote =>
            obtain ⟨⟨text, x⟩, inner, eq⟩ := ok_of_map_eq_ok reads
            obtain ⟨-, rfl⟩ := Prod.mk.inj eq
            have head : skipItemHead .object v = .ok u := by
              rw [skipItemHead, skipKey, quote]
              dsimp only
              rw [skipString_of_readString inner]
              exact colon
            show skipFrom .ended _ _ = _
            rw [skipFrom_ended, front]
            dsimp only
            rw [if_pos comma, head]
        · contradiction

theorem nextKey_none {fresh : Bool} {s t : List Char} (reads : nextKey fresh s = .ok (none, t)) :
    skipSpace s = '\x7d' :: t := by
  unfold nextKey at reads
  split at reads
  · contradiction
  · next c u front =>
    split at reads
    · next brace => rw [front, brace, (Prod.mk.inj (Except.ok.inj reads)).2]
    · split at reads
      · split at reads
        · obtain ⟨_, _, eq⟩ := ok_of_map_eq_ok reads
          simp at eq
        · contradiction
      · split at reads
        · split at reads
          · contradiction
          · obtain ⟨_, _, eq⟩ := ok_of_map_eq_ok reads
            simp at eq
        · contradiction

/-- A member whose value has been taken: either no member of the structure has this key, and the
value was skipped, or one has, which had not been set, and the value was read. -/
theorem readMember_cases {members : List (Member σ)} {key : String} {draft draft' : σ}
    {s r : List Char} (reads : readMember members key draft s = .ok (draft', r)) :
    ∃ t, skipMark ':' s = .ok t ∧
      (((∀ m ∈ members, m.name ≠ key) ∧ skipValue t = .ok r ∧ draft' = draft) ∨
        ∃ m ∈ members, m.name = key ∧ m.isSet draft = false ∧
          ∃ put, m.value.run t = .ok (put, r) ∧ draft' = put draft) := by
  unfold readMember at reads
  split at reads
  · next unknown =>
    split at reads
    · contradiction
    · next t colon =>
      obtain ⟨u, skips, eq⟩ := ok_of_map_eq_ok reads
      obtain ⟨rfl, rfl⟩ := Prod.mk.inj eq
      refine ⟨t, colon, .inl ⟨?_, skips, rfl⟩⟩
      intro m mem
      have not_named := List.find?_eq_none.mp unknown m mem
      simpa using not_named
  · next m found =>
    have named := List.find?_some found
    split at reads
    · contradiction
    · next unset =>
      split at reads
      · contradiction
      · next t colon =>
        obtain ⟨⟨put, u⟩, value, eq⟩ := ok_of_map_eq_ok reads
        obtain ⟨rfl, rfl⟩ := Prod.mk.inj eq
        exact ⟨t, colon, .inr ⟨m, List.mem_of_find?_eq_some found, by simpa using named,
          by simpa using unset, put, value, rfl⟩⟩

/-- A member's value is taken as a whole, whether the member is listed or not. -/
theorem readMember_exact {members : List (Member σ)} (exact : ∀ m ∈ members, m.value.Exact)
    {key : String} {draft draft' : σ} {s r : List Char}
    (reads : readMember members key draft s = .ok (draft', r)) :
    ∃ t, skipMark ':' s = .ok t ∧ skipValue t = .ok r := by
  obtain ⟨t, colon, ⟨-, skips, -⟩ | ⟨m, mem, -, -, put, value, -⟩⟩ := readMember_cases reads
  · exact ⟨t, colon, skips⟩
  · exact ⟨t, colon, exact m mem t put r value⟩

theorem skipFrom_of_readMembers {members : List (Member σ)}
    (exact : ∀ m ∈ members, m.value.Exact) {fresh : Bool} {draft draft' : σ} {s r : List Char}
    (reads : readMembers members fresh draft s = .ok (draft', r)) (stack : List Frame) :
    skipFrom (place fresh) (.object :: stack) s = skipFrom .ended stack r := by
  fun_induction readMembers members fresh draft s with
  | case1 => contradiction
  | case2 fresh draft s t no_key =>
    obtain ⟨-, rfl⟩ := Prod.mk.inj (Except.ok.inj reads)
    have front : skipSpace s = Frame.object.closing :: _ := nextKey_none no_key
    exact skipFrom_place_close fresh front stack
  | case3 => contradiction
  | case4 fresh draft s key t found draft' u member ih =>
    obtain ⟨v, colon, skips⟩ := readMember_exact exact member
    rw [skipFrom_place_key found colon, ← ih reads]
    exact skipFrom_inside skips (by simp) _

theorem skipSpace_skipSpace (s : List Char) : skipSpace (skipSpace s) = skipSpace s := by
  cases front : skipSpace s with
  | nil => rfl
  | cons c r =>
    have visible : isSpace c = false := by
      have first := List.head?_dropWhile_not isSpace s
      rw [← skipSpace, front] at first
      simpa using first
    exact skipSpace_cons visible r

/-- An element stands before the walk exactly where it stands before the reader. -/
theorem skipFrom_place_element {fresh : Bool} {s t : List Char}
    (reads : nextElement fresh s = .ok (true, t)) (stack : List Frame) :
    skipFrom (place fresh) (.array :: stack) s = skipFrom .value (.array :: stack) t := by
  have same_front : ∀ u : List Char, skipFrom .value (.array :: stack) u =
      skipFrom .value (.array :: stack) (skipSpace u) := by
    intro u
    rw [skipFrom_value, skipFrom_value, skipFront, skipFront, skipSpace_skipSpace]
  unfold nextElement at reads
  split at reads
  · contradiction
  · next c u front =>
    split at reads
    · next bracket =>
      obtain ⟨no_element, -⟩ := Prod.mk.inj (Except.ok.inj reads)
      contradiction
    · next no_bracket =>
      have not_closing : c ≠ Frame.array.closing := no_bracket
      cases fresh with
      | true =>
        rw [if_pos rfl] at reads
        obtain ⟨-, rfl⟩ := Prod.mk.inj (Except.ok.inj reads)
        show skipFrom .opened _ _ = _
        rw [skipFrom_opened, front]
        dsimp only
        rw [if_neg not_closing, skipItemHead]
        dsimp only
        rw [same_front, front]
      | false =>
        rw [if_neg (by decide)] at reads
        split at reads
        · next comma =>
          split at reads
          · contradiction
          · next d w front' =>
            split at reads
            · contradiction
            · obtain ⟨-, rfl⟩ := Prod.mk.inj (Except.ok.inj reads)
              show skipFrom .ended _ _ = _
              rw [skipFrom_ended, front]
              dsimp only
              rw [if_pos comma, skipItemHead]
              dsimp only
              rw [same_front, front']
        · contradiction

theorem nextElement_false {fresh : Bool} {s t : List Char}
    (reads : nextElement fresh s = .ok (false, t)) : skipSpace s = t := by
  unfold nextElement at reads
  split at reads
  · contradiction
  · next c u front =>
    split at reads
    · rw [front, (Prod.mk.inj (Except.ok.inj reads)).2]
    · split at reads
      · simp at reads
      · split at reads
        · split at reads
          · contradiction
          · split at reads
            · contradiction
            · simp at reads
        · contradiction

theorem skipFrom_of_readElements {members : List (Member σ)}
    (exact : ∀ m ∈ members, m.value.Exact) {count n : Nat} {draft draft' : σ} {s t r : List Char}
    (reads : readElements members count draft s = .ok (n, draft', t))
    (closes : skipMark ']' t = .ok r) (stack : List Frame) :
    skipFrom (place (count == 0)) (.array :: stack) s = skipFrom .ended stack r := by
  induction members generalizing count draft s with
  | nil =>
    obtain ⟨-, eq⟩ := Prod.mk.inj (Except.ok.inj reads)
    obtain ⟨-, rfl⟩ := Prod.mk.inj eq
    have front : skipSpace s = Frame.array.closing :: r := skipMark_eq_ok closes
    exact skipFrom_place_close _ front stack
  | cons m members ih =>
    rw [readElements] at reads
    split at reads
    · contradiction
    · next u element =>
      -- the elements end before the members do
      obtain ⟨-, eq⟩ := Prod.mk.inj (Except.ok.inj reads)
      obtain ⟨-, rfl⟩ := Prod.mk.inj eq
      have front : skipSpace u = Frame.array.closing :: r := skipMark_eq_ok closes
      rw [← nextElement_false element, skipSpace_skipSpace] at front
      exact skipFrom_place_close _ front stack
    · next u element =>
      split at reads
      · contradiction
      · next put v value =>
        rw [skipFrom_place_element element, (exact m List.mem_cons_self).inside value]
        exact ih (fun m' mem => exact m' (List.mem_cons_of_mem _ mem)) reads

/-- A structure is taken as a whole if its members are. -/
theorem exact_reader (shape : Shape σ α) (exact : ∀ m ∈ shape.members, m.value.Exact) :
    shape.reader.Exact := by
  intro s a r reads
  simp only [reader] at reads
  split at reads
  · contradiction
  · next t front =>
    have skips := skipFront_of_nextToken front
    unfold readObject at reads
    split at reads
    · contradiction
    · next draft u members =>
      split at reads
      · contradiction
      · obtain ⟨-, rfl⟩ := Prod.mk.inj (Except.ok.inj reads)
        rw [skipValue, skipFrom_value, skips]
        exact (skipFrom_of_readMembers exact members []).trans (by rw [skipFrom])
  · next t front =>
    have skips := skipFront_of_nextToken front
    unfold readArray at reads
    split at reads
    · contradiction
    · next count draft u elements =>
      split at reads
      · contradiction
      · obtain ⟨v, closes, eq⟩ := ok_of_map_eq_ok reads
        obtain ⟨-, rfl⟩ := Prod.mk.inj eq
        rw [skipValue, skipFrom_value, skips]
        exact (skipFrom_of_readElements exact elements closes []).trans (by rw [skipFrom])
  · contradiction

end Shape

end DirWatch.Json
