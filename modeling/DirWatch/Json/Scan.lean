import DirWatch.Json.Number
import DirWatch.Json.StringLiteral

/-!
# The front of a JSON text

Blanks, the words of JSON and the token that a text begins with. Of an array or an object only the
opening bracket is taken.
-/

namespace DirWatch.Json

/-- Tells the four characters that may stand between tokens. -/
def isSpace (c : Char) : Bool := c = ' ' || c = '\t' || c = '\n' || c = '\r'

/-- The text from its first character that is no blank on. -/
def skipSpace (s : List Char) : List Char := s.dropWhile isSpace

/-- The text after a word that must come next. -/
def skipWord : (word : List Char) → List Char → Except ReadError (List Char)
  | [], s => .ok s
  | _ :: _, [] => .error .truncated
  | w :: word, c :: r => if c = w then skipWord word r else .error .malformed

/-- The token at the front of a text and what follows it. -/
def nextToken (s : List Char) : Except ReadError (Token × List Char) :=
  match skipSpace s with
  | [] => .error .truncated
  | c :: r =>
    if c = 'n' then (skipWord "ull".toList r).map ((.null, ·))
    else if c = 't' then (skipWord "rue".toList r).map ((.bool true, ·))
    else if c = 'f' then (skipWord "alse".toList r).map ((.bool false, ·))
    else if c = '"' then (readString r).map fun (t, r) => (.string (String.ofList t), r)
    else if c = '[' then .ok (.array, r)
    else if c = '\x7b' then .ok (.object, r)
    else if c = '-' || c.isDigit then (readNumber (c :: r)).map fun (n, r) => (.number n, r)
    else .error .malformed

theorem skipSpace_le (s : List Char) : (skipSpace s).length ≤ s.length :=
  (List.dropWhile_suffix _).length_le

theorem skipWord_le {w s r} (h : skipWord w s = .ok r) : r.length ≤ s.length := by
  fun_induction skipWord w s with
  | case1 => simp at h; simp [h]
  | case2 => simp at h
  | case3 word c t ih =>
    have := ih h
    simp only [List.length_cons]
    omega
  | case4 => simp at h

/-- A successful step that is mapped was successful before. -/
theorem ok_of_map_eq_ok {x : Except ε α} {f : α → β} {b : β} (h : x.map f = .ok b) :
    ∃ a, x = .ok a ∧ f a = b := by
  cases x with
  | error e => simp [Except.map] at h
  | ok a => exact ⟨a, rfl, by simpa [Except.map] using h⟩

/-- A token takes at least one character. -/
theorem nextToken_lt {s t r} (h : nextToken s = .ok (t, r)) : r.length < s.length := by
  have space := skipSpace_le s
  unfold nextToken at h
  split at h
  · simp at h
  · next c u front =>
    rw [front] at space
    simp only [List.length_cons] at space
    repeat' split at h
    case _ =>
      obtain ⟨v, word, eq⟩ := ok_of_map_eq_ok h
      simp at eq
      have := skipWord_le word
      rw [← eq.2]; omega
    case _ =>
      obtain ⟨v, word, eq⟩ := ok_of_map_eq_ok h
      simp at eq
      have := skipWord_le word
      rw [← eq.2]; omega
    case _ =>
      obtain ⟨v, word, eq⟩ := ok_of_map_eq_ok h
      simp at eq
      have := skipWord_le word
      rw [← eq.2]; omega
    case _ =>
      obtain ⟨v, text, eq⟩ := ok_of_map_eq_ok h
      simp at eq
      have := readString_lt text
      rw [← eq.2]; omega
    case _ => simp at h; rw [← h.2]; omega
    case _ => simp at h; rw [← h.2]; omega
    case _ =>
      obtain ⟨v, number, eq⟩ := ok_of_map_eq_ok h
      simp at eq
      have := readNumber_lt number
      simp only [List.length_cons] at this
      rw [← eq.2]; omega
    case _ => simp at h

end DirWatch.Json
