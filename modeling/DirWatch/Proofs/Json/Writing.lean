import DirWatch.Proofs.Json.Grammar

/-!
# Written values are in the grammar

A string that is written stands for itself, whatever characters are in it (`stringText_write`), and
an object that is written is an object text with its names and its written values
(`objectText_compact`).
-/

namespace DirWatch.Json

/-- The escape of a control character has the digits of its number. -/
theorem unitText_control {n : Nat} (control : n < 0x20) :
    UnitText (['0', '0'] ++ (if n < 0x10 then ['0'] else []) ++ Text.hexText n) n := by
  have all : ∀ n < 0x20,
      (['0', '0'] ++ (if n < 0x10 then ['0'] else []) ++ Text.hexText n).length = 4 ∧
        Text.hexValue? (['0', '0'] ++ (if n < 0x10 then ['0'] else []) ++ Text.hexText n) =
          some n := by decide
  exact all n control

/-- A character that is written stands for itself. -/
theorem StringText.escape {s t : List Char} (text : StringText s t) (c : Char) :
    StringText (escapeChar c ++ s) (c :: t) := by
  unfold escapeChar
  split
  iterate 7 exact .short rfl text
  · next quote backslash _ _ _ _ _ =>
    split
    · next control =>
      have small : c.toNat < 0x10000 := by omega
      have escaped := StringText.unit small (unitText_control control) text
      simpa only [List.append_assoc, List.cons_append, List.nil_append] using escaped
    · next printable => exact .plain quote backslash (Nat.not_lt.mp printable) text

theorem stringText_write (s : List Char) : StringText (s.flatMap escapeChar ++ ['"']) s := by
  induction s with
  | nil => exact .close
  | cons c s ih =>
    rw [List.flatMap_cons, List.append_assoc]
    exact ih.escape c

/-! ## Characters that stand for themselves -/

/-- A text without characters that are escaped. -/
def Plain (s : List Char) : Prop := ∀ c ∈ s, c ≠ '"' ∧ c ≠ '\\' ∧ 0x20 ≤ c.toNat

theorem escapeChar_plain {c : Char} (quote : c ≠ '"') (backslash : c ≠ '\\')
    (printable : 0x20 ≤ c.toNat) : escapeChar c = [c] := by
  unfold escapeChar
  split
  · contradiction
  · contradiction
  iterate 5 exact absurd printable (by decide)
  · rw [if_neg (Nat.not_lt.mpr printable)]

theorem writeString_plain {s : List Char} (plain : Plain s) :
    writeString s = '"' :: s ++ ['"'] := by
  have same : s.flatMap escapeChar = s := by
    induction s with
    | nil => rfl
    | cons c s ih =>
      obtain ⟨⟨quote, backslash, printable⟩, others⟩ := List.forall_mem_cons.mp plain
      rw [List.flatMap_cons, escapeChar_plain quote backslash printable, ih others,
        List.singleton_append]
  rw [writeString, same]

/-! ## Objects -/

theorem keyText_write (name : String) :
    KeyText name (writeString name.toList ++ [':']) := by
  refine ⟨[], _, [], [], blank_nil, stringText_write name.toList, blank_nil, blank_nil, ?_⟩
  simp only [writeString, List.nil_append, List.cons_append]

/-- The names and the written values of some members. -/
def written (members : List (String × Value)) : List (String × List Char) :=
  members.map fun m => (m.1, m.2.compact)

theorem compactMembers_cons (m : String × Value) (rest : List (String × Value)) :
    compactMembers (m :: rest) ++ ['\x7d'] = writeString m.1.toList ++ ':' :: (m.2.compact ++
      if rest = [] then ['\x7d'] else ',' :: (compactMembers rest ++ ['\x7d'])) := by
  cases rest with
  | nil => simp [compactMembers]
  | cons m' rest => simp [compactMembers]

/-- What is written behind a member. -/
theorem membersText_more (members : List (String × Value)) :
    MembersText false (written members)
      (if members = [] then ['\x7d'] else ',' :: (compactMembers members ++ ['\x7d'])) := by
  induction members with
  | nil => exact .close blank_nil
  | cons m rest ih =>
    have text : MembersText false (written (m :: rest)) _ :=
      .next blank_nil (keyText_write m.1) ih
    rw [if_neg (List.cons_ne_nil m rest), compactMembers_cons]
    simpa only [List.append_assoc, List.cons_append, List.nil_append] using text

/-- A written object has the members that it was written from. -/
theorem objectText_compact (members : List (String × Value)) :
    ObjectText (written members) (Value.object members).compact := by
  refine ⟨compactMembers members ++ ['\x7d'], by rw [Value.compact]; rfl, ?_⟩
  cases members with
  | nil =>
    rw [compactMembers]
    exact .close blank_nil
  | cons m rest =>
    have text : MembersText true (written (m :: rest)) _ :=
      .first (keyText_write m.1) (membersText_more rest)
    rw [compactMembers_cons]
    simpa only [List.append_assoc, List.cons_append, List.nil_append] using text

end DirWatch.Json
