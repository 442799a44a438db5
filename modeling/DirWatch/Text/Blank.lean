/-!
# Blanks around a word

The characters with the Unicode property `White_Space`, and the text that is left when a word loses
those at its two ends. The end result, `trim`, has neither a leading nor a trailing blank.
-/

namespace DirWatch.Text

/-- Tells the twenty-five characters with the property `White_Space`. -/
def isBlank (c : Char) : Bool :=
  let n := c.toNat
  (0x9 ≤ n && n ≤ 0xD) || n == 0x20 || n == 0x85 || n == 0xA0 || n == 0x1680 ||
    (0x2000 ≤ n && n ≤ 0x200A) || n == 0x2028 || n == 0x2029 || n == 0x202F || n == 0x205F ||
    n == 0x3000

/-- Drops the blanks at the end of a text. -/
def trimEnd (s : List Char) : List Char :=
  (s.reverse.dropWhile isBlank).reverse

/-- Drops the blanks at both ends of a text. -/
def trim (s : List Char) : List Char :=
  trimEnd (s.dropWhile isBlank)

/-- A text of blanks alone has nothing left. -/
theorem trim_eq_nil_of_forall {s : List Char} (h : ∀ c ∈ s, isBlank c = true) : trim s = [] := by
  have : s.dropWhile isBlank = [] := by
    induction s with
    | nil => rfl
    | cons c r ih =>
      simp only [List.dropWhile_cons, h c (by simp), if_true]
      exact ih fun d hd => h d (by simp [hd])
  simp [trim, trimEnd, this]

end DirWatch.Text
