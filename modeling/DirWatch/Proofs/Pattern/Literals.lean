import DirWatch.Proofs.Pattern.Casing
import DirWatch.Proofs.Text.Pieces
import Mathlib.Tactic.NthRewrite

/-!
# Literal text and stars

A glob of literal texts with single stars between them, every character behind a backslash
(`Glob.starred`), reads as the characters of the texts and the stars (`Glob.readFrom_starred`):
no two stars meet, and no character keeps a meaning of its own. It matches the paths in which the
texts follow one another with anything between them, but for the case of ASCII letters
(`Pattern.matchPath_starred`).
-/

namespace DirWatch

namespace Glob

/-! ## The text -/

/-- A text with a backslash before each character. -/
def escaped (text : List Char) : List Char := text.flatMap fun c => ['\\', c]

/-- Literal texts with a star between each two of them. -/
def starred (first : String) (rest : List String) : String :=
  String.ofList (Text.glue ['*'] ((first :: rest).map fun text => escaped text.toList))

theorem escaped_cons (c : Char) (text : List Char) :
    escaped (c :: text) = '\\' :: c :: escaped text := rfl

theorem toList_starred (first : String) (rest : List String) :
    (starred first rest).toList =
      escaped first.toList ++ rest.flatMap fun text => '*' :: escaped text.toList := by
  rw [starred, String.toList_ofList, List.map_cons, Text.glue_cons, List.flatMap_map]
  rfl

/-! ## Reading it -/

/-- The tokens of a literal text. -/
def literals (text : List Char) : List Token := text.map Token.literal

/-- The tokens of literal texts with a star before each of them. -/
def starTokens (rest : List String) : List Token :=
  rest.flatMap fun text => .anyText :: literals text.toList

/-- Behind a literal text its characters have been read into the open branch. -/
theorem readFrom_escaped (text rest : List Char) (branch : List Token) (groups : List Group)
    (before : Option Char) :
    ∃ before', readFrom ⟨branch, groups, before⟩ (escaped text ++ rest) =
      readFrom ⟨(literals text).reverse ++ branch, groups, before'⟩ rest := by
  induction text generalizing branch before with
  | nil => exact ⟨before, rfl⟩
  | cons c text ih =>
    obtain ⟨before', read⟩ := ih (.literal c :: branch) (some c)
    refine ⟨before', ?_⟩
    rw [escaped_cons, List.cons_append, List.cons_append, readFrom]
    show readFrom ⟨.literal c :: branch, groups, some c⟩ (escaped text ++ rest) = _
    rw [read, literals, literals, List.map_cons, List.reverse_cons, List.append_assoc]
    rfl

/-- A star that no second one follows is read by itself. -/
theorem readFrom_star (st : State) {s : List Char} (single : s.head? ≠ some '*') :
    readFrom st ('*' :: s) = readFrom (st.push .anyText '*') s := by
  nth_rewrite 1 [readFrom]
  · rfl
  · rintro r rfl
    exact single rfl

theorem readFrom_starTokens (rest : List String) (filled : ∀ text ∈ rest.dropLast, text ≠ "")
    (branch : List Token) (before : Option Char) :
    readFrom ⟨branch, [], before⟩ (rest.flatMap fun text => '*' :: escaped text.toList) =
      .ok (branch.reverse ++ starTokens rest) := by
  induction rest generalizing branch before with
  | nil =>
    rw [List.flatMap_nil, readFrom]
    simp [starTokens]
  | cons text rest ih =>
    have single : (escaped text.toList ++
        rest.flatMap fun text => '*' :: escaped text.toList).head? ≠ some '*' := by
      cases chars : text.toList with
      | cons c chars => simp [escaped]
      | nil =>
        -- an empty text stands at the end only
        cases rest with
        | nil => simp [escaped]
        | cons next rest =>
          exact absurd (String.toList_eq_nil_iff.mp chars) (filled text (by simp))
    have filled_rest : ∀ text ∈ rest.dropLast, text ≠ "" := by
      intro other mem
      cases rest with
      | nil => simp at mem
      | cons next rest => exact filled other (List.mem_cons_of_mem _ mem)
    rw [List.flatMap_cons, List.cons_append, readFrom_star _ single]
    obtain ⟨before', read⟩ := readFrom_escaped text.toList
      (rest.flatMap fun text => '*' :: escaped text.toList) (.anyText :: branch) [] (some '*')
    show readFrom ⟨.anyText :: branch, [], some '*'⟩ _ = _
    rw [read, ih filled_rest]
    simp [starTokens]

theorem readFrom_starred (first : String) (rest : List String)
    (filled : ∀ text ∈ rest.dropLast, text ≠ "") :
    readFrom .start (starred first rest).toList =
      .ok (literals first.toList ++ starTokens rest) := by
  obtain ⟨before, read⟩ := readFrom_escaped first.toList
    (rest.flatMap fun text => '*' :: escaped text.toList) [] [] none
  rw [toList_starred]
  show readFrom ⟨[], [], none⟩ _ = _
  rw [read, readFrom_starTokens rest filled]
  simp

/-! ## Matching it -/

theorem takesAll_literals (text : List Char) (w : List UInt8) :
    TakesAll (literals text) w ↔ folded w = folded (Text.toBytes text) := by
  induction text generalizing w with
  | nil => exact folded_eq_nil_iff.symm
  | cons c text ih =>
    have bytes : Text.toBytes (c :: text) = bytesOf c ++ Text.toBytes text := by
      simp [Text.toBytes, bytesOf]
    rw [bytes]
    constructor
    · rintro ⟨u, v, rfl, first, rest⟩
      rw [folded_append, folded_append, (ih v).mp rest]
      exact congrArg (· ++ _) first
    · intro same
      obtain ⟨u, v, rfl, first, rest⟩ := append_of_folded_eq same
      exact ⟨u, v, rfl, first, (ih v).mpr rest⟩

/-- Texts with a star before each of them stand for the same texts with any bytes before each. -/
theorem takesAll_starTokens (rest : List String) (w : List UInt8) :
    TakesAll (starTokens rest) w ↔ ∃ gaps : List (List UInt8), gaps.length = rest.length ∧
      folded w = (gaps.zip rest).flatMap fun x => x.1 ++ foldedBytes x.2 := by
  induction rest generalizing w with
  | nil =>
    simp [starTokens, TakesAll, folded_eq_nil_iff]
  | cons text rest ih =>
    have split : starTokens (text :: rest) =
      .anyText :: (literals text.toList ++ starTokens rest) := by simp [starTokens]
    rw [split, TakesAll]
    constructor
    · rintro ⟨gap, v, rfl, -, more⟩
      obtain ⟨u, v, rfl, here, behind⟩ := (takesAll_append _ _ _).mp more
      obtain ⟨gaps, many, spread⟩ := (ih v).mp behind
      refine ⟨folded gap :: gaps, by rw [List.length_cons, List.length_cons, many], ?_⟩
      rw [folded_append, folded_append, (takesAll_literals _ _).mp here, spread]
      simp [foldedBytes]
    · rintro ⟨gaps, many, spread⟩
      cases gaps with
      | nil => simp at many
      | cons gap gaps =>
        rw [List.zip_cons_cons, List.flatMap_cons, List.append_assoc] at spread
        obtain ⟨u, v, rfl, -, spread⟩ := List.map_eq_append_iff.mp spread
        obtain ⟨here, v, rfl, literal, behind⟩ := List.map_eq_append_iff.mp spread
        refine ⟨u, here ++ v, rfl, trivial, (takesAll_append _ _ _).mpr ⟨here, v, rfl, ?_, ?_⟩⟩
        · exact (takesAll_literals _ _).mpr literal
        · exact (ih v).mpr ⟨gaps, Nat.succ.inj many, behind⟩

end Glob

/-- The texts follow one another in a path, from its front to its end, with any bytes between each
two of them; ASCII letters may be in either case. -/
def Follow (first : String) (rest : List String) (path : String) : Prop :=
  ∃ gaps : List (List UInt8), gaps.length = rest.length ∧
    foldedBytes path =
      foldedBytes first ++ (gaps.zip rest).flatMap fun x => x.1 ++ foldedBytes x.2

/-- The tokens of literal texts with stars between them match the paths in which the texts follow
one another. -/
theorem isMatch_starTokens (first : String) (rest : List String) (path : String) :
    Glob.isMatch (Glob.literals first.toList ++ Glob.starTokens rest)
      (Text.toBytes path.toList) = true ↔ Follow first rest path := by
  have plain : Glob.literals first.toList ++ Glob.starTokens rest ≠ [.anyParents] := by
    intro parents
    have mem : Glob.Token.anyParents ∈ Glob.literals first.toList ++ Glob.starTokens rest := by
      rw [parents]
      exact List.mem_singleton_self _
    simp [Glob.literals, Glob.starTokens] at mem
  rw [Glob.isMatch_iff, Glob.matches_iff plain, Glob.takesAll_append]
  constructor
  · rintro ⟨u, v, whole, here, behind⟩
    obtain ⟨gaps, many, spread⟩ := (Glob.takesAll_starTokens rest v).mp behind
    refine ⟨gaps, many, ?_⟩
    rw [foldedBytes, whole, Glob.folded_append, (Glob.takesAll_literals _ _).mp here, spread]
    rfl
  · rintro ⟨gaps, many, spread⟩
    obtain ⟨u, v, whole, here, behind⟩ := List.map_eq_append_iff.mp spread
    exact ⟨u, v, whole, (Glob.takesAll_literals _ _).mpr here,
      (Glob.takesAll_starTokens rest v).mpr ⟨gaps, many, behind⟩⟩

namespace Pattern

/-- A glob of this kind starts with no sign. -/
theorem splitSign_starred (first : String) (rest : List String) :
    splitSign (Glob.starred first rest).toList =
      (.including, (Glob.starred first rest).toList) := by
  rw [Glob.toList_starred]
  cases first.toList with
  | cons c text => rfl
  | nil =>
    cases rest with
    | nil => rfl
    | cons text rest => rfl

/-- Behind any sign, or none, the glob is read, and it decides as its kind says. -/
theorem matchPath_of_splitSign {text first : String} {rest : List String} {kind : PatternKind}
    (sign : splitSign text.toList = (kind, (Glob.starred first rest).toList))
    (filled : ∀ text ∈ rest.dropLast, text ≠ "") (path : String) :
    (Follow first rest path → matchPath path text = .ok kind.outcome) ∧
      (¬ Follow first rest path → matchPath path text = .ok .noMatch) := by
  have parsed : parse text =
      .ok ⟨kind, text, Glob.literals first.toList ++ Glob.starTokens rest⟩ := by
    simp only [parse, sign, Glob.readFrom_starred first rest filled]
  have matched := isMatch_starTokens first rest path
  rw [matchPath, parsed]
  show (Follow first rest path → Except.ok (test _ path) = _) ∧ (¬ _ → Except.ok (test _ path) = _)
  simp only [test]
  constructor
  · intro follow
    rw [if_pos (matched.mpr follow)]
  · intro apart
    rw [if_neg (fun found => apart (matched.mp found))]

end Pattern

/-- Literal texts with single stars between them are a pattern, whatever characters they have; only
the first text and the last may be empty. The pattern matches exactly the paths in which the texts
follow one another with any bytes between them, slashes included: with `+` or without a sign it
includes them, with `-` it excludes them. A single text matches the paths that are the same but for
the case of ASCII letters. -/
theorem matchPath_starred (first : String) (rest : List String)
    (filled : ∀ text ∈ rest.dropLast, text ≠ "") (path : String) :
    (Follow first rest path →
      matchPath path ("+" ++ Glob.starred first rest) = .ok .included ∧
        matchPath path ("-" ++ Glob.starred first rest) = .ok .excluded ∧
        matchPath path (Glob.starred first rest) = .ok .included) ∧
      (¬ Follow first rest path →
        matchPath path ("+" ++ Glob.starred first rest) = .ok .noMatch ∧
          matchPath path ("-" ++ Glob.starred first rest) = .ok .noMatch ∧
          matchPath path (Glob.starred first rest) = .ok .noMatch) ∧
      (rest = [] → (Follow first rest path ↔ foldedBytes path = foldedBytes first)) := by
  have plus_sign : Pattern.splitSign ("+" ++ Glob.starred first rest).toList =
      (.including, (Glob.starred first rest).toList) := by
    rw [String.toList_append]
    rfl
  have minus_sign : Pattern.splitSign ("-" ++ Glob.starred first rest).toList =
      (.excluding, (Glob.starred first rest).toList) := by
    rw [String.toList_append]
    rfl
  have plus := Pattern.matchPath_of_splitSign plus_sign filled path
  have minus := Pattern.matchPath_of_splitSign minus_sign filled path
  have bare := Pattern.matchPath_of_splitSign (Pattern.splitSign_starred first rest) filled path
  refine ⟨fun follow => ⟨plus.1 follow, minus.1 follow, bare.1 follow⟩,
    fun apart => ⟨plus.2 apart, minus.2 apart, bare.2 apart⟩, ?_⟩
  rintro rfl
  simp [Follow]

/-- Brackets, a star and a sign are characters like others in literal texts; the gaps hold a line
end and slashes; the last text is empty. -/
theorem matchPath_starred_threeTexts :
    (∀ text ∈ ["*/É-", ""].dropLast, text ≠ "") ∧
      matchPath "sRC[a/\nb*/É-/c" ("+" ++ Glob.starred "Src[" ["*/É-", ""]) = .ok .included ∧
      matchPath "sRC[a/\nb*/É-/c" ("-" ++ Glob.starred "Src[" ["*/É-", ""]) = .ok .excluded := by
  have filled : ∀ text ∈ ["*/É-", ""].dropLast, text ≠ "" := by decide
  have follow : Follow "Src[" ["*/É-", ""] "sRC[a/\nb*/É-/c" :=
    ⟨[Text.toBytes "a/\nb".toList, Text.toBytes "/c".toList], rfl, by decide +kernel⟩
  obtain ⟨included, excluded, -⟩ :=
    (matchPath_starred "Src[" ["*/É-", ""] filled "sRC[a/\nb*/É-/c").1 follow
  exact ⟨filled, included, excluded⟩

end DirWatch
