import DirWatch.Pattern.Filtering
import DirWatch.Proofs.Glob.Language

/-!
# The case of a path

What a token stands for, it stands for in either case of the ASCII letters
(`Token.Takes.of_folded_eq`): by induction over the tokens, a class being closed under the change of
case before it is negated. So two paths that differ in nothing else are classified alike by every
list of patterns (`Patterns.classify_ignores_case`).
-/

namespace DirWatch

namespace Glob

/-! ## Bytes without regard to case -/

theorem folded_eq_nil_iff {w : List UInt8} : folded w = [] ↔ w = [] := List.map_eq_nil_iff

/-- Bytes can be cut where the same bytes in another case can be cut. -/
theorem append_of_folded_eq {w u v : List UInt8} (same : folded w = folded (u ++ v)) :
    ∃ u' v', w = u' ++ v' ∧ folded u' = folded u ∧ folded v' = folded v := by
  rw [folded_append] at same
  exact List.map_eq_append_iff.mp same

theorem singleton_of_folded_eq {w : List UInt8} {b : UInt8} (same : folded w = folded [b]) :
    ∃ b', w = [b'] ∧ lower b' = lower b := by
  obtain ⟨b', rest, rfl, case_only, none_left⟩ := List.map_eq_cons_iff.mp same
  obtain rfl := folded_eq_nil_iff.mp none_left
  exact ⟨b', rfl, case_only⟩

/-- A slash has no case. -/
theorem slash_of_folded_eq {w : List UInt8} (same : folded w = folded [0x2F]) : w = [0x2F] := by
  obtain ⟨b, rfl, case_only⟩ := singleton_of_folded_eq same
  rcases (lower_eq_lower_iff b 0x2F).mp case_only with rfl | rfl
  · rfl
  · rfl

/-! ## Tokens -/

mutual

/-- What a token stands for, it stands for in either case. -/
theorem Token.Takes.of_folded_eq {w w' : List UInt8} (t : Token) (h : t.Takes w)
    (same : folded w' = folded w) : t.Takes w' := by
  match t with
  | .literal c => exact same.trans h
  | .anyByte =>
    obtain ⟨b, rfl⟩ := h
    obtain ⟨b', rfl, -⟩ := singleton_of_folded_eq same
    exact ⟨b', rfl⟩
  | .anyText => trivial
  | .anyParents =>
    rcases h with rfl | ⟨u, rfl⟩
    · exact .inl (folded_eq_nil_iff.mp same)
    · obtain ⟨u', v', rfl, -, slash⟩ := append_of_folded_eq same
      exact .inr ⟨u', by rw [slash_of_folded_eq slash]⟩
  | .anyBelow =>
    obtain ⟨u, rfl⟩ := h
    obtain ⟨v', u', rfl, slash, -⟩ := append_of_folded_eq (u := [0x2F]) (v := u) same
    exact ⟨u', by rw [slash_of_folded_eq slash]; rfl⟩
  | .anyBetween =>
    rcases h with rfl | ⟨u, rfl⟩
    · exact .inl (slash_of_folded_eq same)
    · obtain ⟨v', z', rfl, front, back⟩ := append_of_folded_eq same
      obtain ⟨x', u', rfl, slash, -⟩ := append_of_folded_eq (u := [0x2F]) (v := u) front
      exact .inr ⟨u', by rw [slash_of_folded_eq slash, slash_of_folded_eq back]; rfl⟩
  | .oneOf negated ranges =>
    obtain ⟨b, rfl, inside⟩ := h
    obtain ⟨b', rfl, case_only⟩ := singleton_of_folded_eq same
    exact ⟨b', rfl, by rwa [case_only]⟩
  | .choice branches =>
    rw [Token.Takes] at h ⊢
    split at h
    · next void =>
      rw [if_pos void]
      rw [h] at same
      exact folded_eq_nil_iff.mp same
    · next filled =>
      rw [if_neg filled]
      exact TakesAny.of_folded_eq branches h same

theorem TakesAll.of_folded_eq {w w' : List UInt8} (ts : List Token) (h : TakesAll ts w)
    (same : folded w' = folded w) : TakesAll ts w' := by
  match ts with
  | [] =>
    rw [TakesAll] at h
    rw [h] at same
    exact folded_eq_nil_iff.mp same
  | t :: ts =>
    obtain ⟨u, v, rfl, first, rest⟩ := h
    obtain ⟨u', v', rfl, same_first, same_rest⟩ := append_of_folded_eq same
    exact ⟨u', v', rfl, Token.Takes.of_folded_eq t first same_first,
      TakesAll.of_folded_eq ts rest same_rest⟩

theorem TakesAny.of_folded_eq {w w' : List UInt8} (bs : List (List Token)) (h : TakesAny bs w)
    (same : folded w' = folded w) : TakesAny bs w' := by
  match bs with
  | [] => exact h
  | b :: bs =>
    rcases h with ⟨filled, first⟩ | others
    · exact .inl ⟨filled, TakesAll.of_folded_eq b first same⟩
    · exact .inr (TakesAny.of_folded_eq bs others same)

end

theorem Matches.of_folded_eq {tokens : List Token} {w w' : List UInt8} (h : Matches tokens w)
    (same : folded w' = folded w) : Matches tokens w' := by
  by_cases parents : tokens = [.anyParents]
  · rw [parents]
    trivial
  · rw [matches_iff parents] at h ⊢
    exact TakesAll.of_folded_eq tokens h same

/-- The matcher does not see the case of a path. -/
theorem isMatch_of_folded_eq (tokens : List Token) {w w' : List UInt8}
    (same : folded w' = folded w) : isMatch tokens w' = isMatch tokens w := by
  rw [Bool.eq_iff_iff, isMatch_iff, isMatch_iff]
  exact ⟨fun h => h.of_folded_eq same.symm, fun h => h.of_folded_eq same⟩

end Glob

/-- The bytes of a text with ASCII capitals made small. -/
def foldedBytes (text : String) : List UInt8 := Glob.folded (Text.toBytes text.toList)

variable {path other : String}

theorem Pattern.test_of_folded_eq (p : Pattern) (same : foldedBytes path = foldedBytes other) :
    p.test path = p.test other := by
  rw [test, test, Glob.isMatch_of_folded_eq p.tokens same]

theorem Patterns.firstMatch_of_folded_eq (ps : Patterns)
    (same : foldedBytes path = foldedBytes other) :
    firstMatch path ps = firstMatch other ps := by
  induction ps with
  | nil => rfl
  | cons p ps ih => rw [firstMatch, firstMatch, p.test_of_folded_eq same, ih]

theorem Record.mem_decodeFiltered_iff {buffer : Buffer} {count : Nat} {ps : Patterns} {c : Change} :
    c ∈ decodeFiltered buffer count ps ↔ c ∈ decode buffer count ∧ ps.admits c.path = true := by
  rw [decodeFiltered_eq_filter, List.mem_filter]

/-- Two paths that are the same but for the case of ASCII letters are classified alike, whatever the
patterns. So of two changes of such paths, in one buffer or in two, both are kept by the patterns of
a watch or both are dropped. -/
theorem Patterns.classify_ignores_case (ps : Patterns)
    (same : foldedBytes path = foldedBytes other) :
    ps.classify path = ps.classify other ∧
      ∀ (buffer buffer' : Buffer) (count count' : Nat) (c c' : Change),
        c ∈ Record.decode buffer count → c.path = path →
        c' ∈ Record.decode buffer' count' → c'.path = other →
        (c ∈ Record.decodeFiltered buffer count ps ↔
          c' ∈ Record.decodeFiltered buffer' count' ps) := by
  have alike : ps.classify path = ps.classify other := by
    rw [classify, classify, ps.firstMatch_of_folded_eq same]
  refine ⟨alike, ?_⟩
  rintro buffer buffer' count count' c c' found rfl found' rfl
  rw [Record.mem_decodeFiltered_iff, Record.mem_decodeFiltered_iff, admits, admits, alike]
  simp only [found, found', true_and]

/-- A negated class of capitals and of a character that is not ASCII, and behind this pattern one
for all paths. -/
def twoPatterns : Patterns :=
  [⟨.excluding, "-[!A-Yé]*.t?",
      [.oneOf true [('A', 'Y'), ('é', 'é')], .anyText, .literal '.', .literal 't', .anyByte]⟩,
    ⟨.including, "+**", [.anyParents]⟩]

/-- One file in either case: it has been added, and then removed. -/
def twoCases : Buffer :=
  #[24, 0, 0, 0, 1, 0, 0, 0, 12, 0, 0, 0,
      0x5A, 0, 0x2F, 0, 0xE9, 0, 0x2E, 0, 0x54, 0, 0x78, 0,
    0, 0, 0, 0, 2, 0, 0, 0, 12, 0, 0, 0,
      0x7A, 0, 0x2F, 0, 0xE9, 0, 0x2E, 0, 0x74, 0, 0x58, 0]

/-- The class takes the `z` in either case, so that the first pattern decides on both paths and
drops both changes. -/
theorem Patterns.classify_ignores_case_twoPatterns :
    parse ["-[!A-Yé]*.t?", "+**"] = .ok twoPatterns ∧
      foldedBytes "Z/é.Tx" = foldedBytes "z/é.tX" ∧
      twoPatterns.classify "Z/é.Tx" = .excluded ∧ twoPatterns.classify "z/é.tX" = .excluded ∧
      Record.decode twoCases 48 = [⟨.added, "Z/é.Tx"⟩, ⟨.removed, "z/é.tX"⟩] ∧
      ⟨.added, "Z/é.Tx"⟩ ∉ Record.decodeFiltered twoCases 48 twoPatterns ∧
      ⟨.removed, "z/é.tX"⟩ ∉ Record.decodeFiltered twoCases 48 twoPatterns := by
  have parsed : parse ["-[!A-Yé]*.t?", "+**"] = .ok twoPatterns := by with_unfolding_all rfl
  have same : foldedBytes "Z/é.Tx" = foldedBytes "z/é.tX" := by decide +kernel
  have excluded : twoPatterns.classify "Z/é.Tx" = .excluded := by decide +kernel
  have decoded : Record.decode twoCases 48 = [⟨.added, "Z/é.Tx"⟩, ⟨.removed, "z/é.tX"⟩] := by
    decide +kernel
  have dropped : ⟨.added, "Z/é.Tx"⟩ ∉ Record.decodeFiltered twoCases 48 twoPatterns := by
    rw [Record.mem_decodeFiltered_iff, admits, excluded]
    exact fun kept => absurd kept.2 (by decide)
  obtain ⟨alike, both⟩ := twoPatterns.classify_ignores_case same
  have together := both twoCases twoCases 48 48 ⟨.added, "Z/é.Tx"⟩ ⟨.removed, "z/é.tX"⟩
    (by rw [decoded]; exact List.mem_cons_self) rfl
    (by rw [decoded]; exact List.mem_cons_of_mem _ List.mem_cons_self) rfl
  exact ⟨parsed, same, excluded, alike.symm.trans excluded, decoded, dropped,
    fun kept => dropped (together.mpr kept)⟩

end DirWatch
