import DirWatch.Text.Utf8

/-!
# ASCII in forgiving reading

Forgiving reading makes ASCII characters of their own bytes only (`firstChar_ascii`): the characters
of several bytes and U+FFFD are none. So a slash in a text was a slash among the bytes, and a text
of ASCII characters alone tells its bytes (`eq_of_ofBytesLossy`).
-/

namespace DirWatch.Text

theorem toNat_ofNat_of_valid {n : Nat} (valid : n < 0xD800 ∨ (0xDFFF < n ∧ n < 0x110000)) :
    (Char.ofNat n).toNat = n := by
  rw [Char.ofNat, dif_pos valid]
  rfl

theorem isContinuation_iff {b : UInt8} :
    isContinuation b = true ↔ 0x80 ≤ b.toNat ∧ b.toNat ≤ 0xBF := by
  simp [isContinuation, UInt8.le_iff_toNat_le]

theorem opensThree_iff {first second : UInt8} :
    opensThree first second = true ↔
      0xE0 ≤ first.toNat ∧ first.toNat ≤ 0xEF ∧ 0x80 ≤ second.toNat ∧ second.toNat ≤ 0xBF ∧
        (first.toNat = 0xE0 → 0xA0 ≤ second.toNat) ∧
        (first.toNat = 0xED → second.toNat ≤ 0x9F) := by
  simp only [opensThree, isContinuation, Bool.or_eq_true, Bool.and_eq_true, decide_eq_true_eq,
    beq_iff_eq, UInt8.le_iff_toNat_le, ← UInt8.toNat_inj, UInt8.reduceToNat]
  omega

theorem opensFour_iff {first second : UInt8} :
    opensFour first second = true ↔
      0xF0 ≤ first.toNat ∧ first.toNat ≤ 0xF4 ∧ 0x80 ≤ second.toNat ∧ second.toNat ≤ 0xBF ∧
        (first.toNat = 0xF0 → 0x90 ≤ second.toNat) ∧
        (first.toNat = 0xF4 → second.toNat ≤ 0x8F) := by
  simp only [opensFour, isContinuation, Bool.or_eq_true, Bool.and_eq_true, decide_eq_true_eq,
    beq_iff_eq, UInt8.le_iff_toNat_le, ← UInt8.toNat_inj, UInt8.reduceToNat]
  omega

/-- An ASCII character at the front is the first byte. -/
theorem firstChar_ascii {b : UInt8} {r : List UInt8} {c : Char} {more : Nat}
    (front : firstChar b r = .char c more) (ascii : c.toNat < 0x80) :
    b.toNat = c.toNat ∧ more = 0 := by
  have no_ascii {n : Nat} (valid : n < 0xD800 ∨ (0xDFFF < n ∧ n < 0x110000)) (large : 0x80 ≤ n)
      (same : Char.ofNat n = c) : b.toNat = c.toNat ∧ more = 0 := by
    rw [← same, toNat_ofNat_of_valid valid] at ascii
    omega
  unfold firstChar at front
  split at front
  · next small =>
    cases front
    have below : b.toNat < 0x80 := by simpa [UInt8.lt_iff_toNat_lt] using small
    rw [toNat_ofNat_of_valid (by omega)]
    exact ⟨rfl, rfl⟩
  · -- two, three or four bytes: the bounds on the first ones keep the number above ASCII
    repeat' split at front
    all_goals try contradiction
    all_goals
      obtain ⟨same, -⟩ := Front.char.inj front
      simp only [isContinuation_iff, opensThree_iff, opensFour_iff, Bool.and_eq_true,
        decide_eq_true_eq, UInt8.le_iff_toNat_le, UInt8.reduceToNat] at *
      exact no_ascii (by simp only [payload]; omega) (by simp only [payload]; omega) same

theorem mem_of_mem_ofBytesLossy {c : Char} (ascii : c.toNat < 0x80) {bytes : List UInt8}
    (mem : c ∈ ofBytesLossy bytes) : ∃ b ∈ bytes, b.toNat = c.toNat := by
  fun_induction ofBytesLossy bytes with
  | case1 => exact absurd mem List.not_mem_nil
  | case2 b r d more front ih =>
    rcases List.mem_cons.mp mem with rfl | later
    · exact ⟨b, List.mem_cons_self, (firstChar_ascii front ascii).1⟩
    · obtain ⟨b', found, same⟩ := ih later
      exact ⟨b', List.mem_cons_of_mem b (List.mem_of_mem_drop found), same⟩
  | case3 b r more front ih =>
    rcases List.mem_cons.mp mem with rfl | later
    · exact absurd ascii (by decide)
    · obtain ⟨b', found, same⟩ := ih later
      exact ⟨b', List.mem_cons_of_mem b (List.mem_of_mem_drop found), same⟩

/-- A text of ASCII characters tells the bytes that it was read from. -/
theorem eq_of_ofBytesLossy {bytes : List UInt8} {s : List Char} (read : ofBytesLossy bytes = s)
    (ascii : ∀ c ∈ s, c.toNat < 0x80) : bytes = s.map fun c => UInt8.ofNat c.toNat := by
  fun_induction ofBytesLossy bytes generalizing s with
  | case1 =>
    rw [← read]
    rfl
  | case2 b r c more front ih =>
    subst read
    rw [List.forall_mem_cons] at ascii
    obtain ⟨byte, rfl⟩ := firstChar_ascii front ascii.1
    rw [List.drop_zero] at ih ascii
    rw [List.map_cons, ← byte, UInt8.ofNat_toNat, List.drop_zero, ← ih rfl ascii.2]
  | case3 b r more front ih =>
    subst read
    exact absurd (ascii _ List.mem_cons_self) (by decide)

end DirWatch.Text
