import DirWatch.Pattern.Basic
import DirWatch.Proofs.Glob.PlainStart
import Mathlib.Data.List.Forall2

/-!
# The first match decides

What lists of patterns say of a path, from what their parts say: a list behind another decides where
the first one does not (`Patterns.firstMatch_append`), so a pattern counts only for the paths that
no pattern before it matches. A list can be read if each of its texts can, and the first text at
fault is reported (`Patterns.parse_eq_error_iff`). A sign is one character: it chooses between the
kinds, and all behind it is the glob (`Pattern.parse_eq`). `Patterns.first_match_decides` puts these
laws together.
-/

namespace DirWatch

/-! ## Outcomes -/

/-- What one list says, and where it says nothing, what another one does. -/
def MatchOutcome.orElse : MatchOutcome → MatchOutcome → MatchOutcome
  | noMatch, later => later
  | decided, _ => decided

/-- Included and excluded in each other's place. -/
def MatchOutcome.swapped : MatchOutcome → MatchOutcome
  | noMatch => noMatch
  | included => excluded
  | excluded => included

/-- The other kind. -/
def PatternKind.swapped : PatternKind → PatternKind
  | including => excluding
  | excluding => including

theorem PatternKind.outcome_ne_noMatch (k : PatternKind) : k.outcome ≠ .noMatch := by
  cases k <;> decide

/-- What becomes of an outcome if the kinds of all patterns are changed in some way. -/
def MatchOutcome.under (kinds : PatternKind → PatternKind) : MatchOutcome → MatchOutcome
  | noMatch => noMatch
  | included => (kinds .including).outcome
  | excluded => (kinds .excluding).outcome

namespace MatchOutcome

theorem under_id (o : MatchOutcome) : o.under id = o := by
  cases o <;> rfl

theorem under_swapped (o : MatchOutcome) : o.under .swapped = o.swapped := by
  cases o <;> rfl

theorem under_outcome (kinds : PatternKind → PatternKind) (k : PatternKind) :
    k.outcome.under kinds = (kinds k).outcome := by
  cases k <;> rfl

theorem under_orElse (kinds : PatternKind → PatternKind) (o later : MatchOutcome) :
    (o.orElse later).under kinds = (o.under kinds).orElse (later.under kinds) := by
  cases o with
  | noMatch => rfl
  | included =>
    show (kinds .including).outcome = (kinds .including).outcome.orElse _
    cases kinds .including <;> rfl
  | excluded =>
    show (kinds .excluding).outcome = (kinds .excluding).outcome.orElse _
    cases kinds .excluding <;> rfl

end MatchOutcome

/-! ## Lists of patterns -/

/-- Tells whether a pattern matches a path, whatever its kind makes of this. -/
def Pattern.Finds (p : Pattern) (path : String) : Prop := p.test path ≠ .noMatch

theorem Pattern.finds_iff {p : Pattern} {path : String} :
    p.Finds path ↔ Glob.isMatch p.tokens (Text.toBytes path.toList) = true := by
  rw [Finds, test]
  split
  · next found => simpa [found] using PatternKind.outcome_ne_noMatch p.kind
  · next unmatched => simp [unmatched]

namespace Patterns

variable {ps qs : Patterns} {p : Pattern} {path : String}

theorem firstMatch_cons (p : Pattern) (ps : Patterns) :
    firstMatch path (p :: ps) = (p.test path).orElse (firstMatch path ps) := by
  rw [firstMatch]
  cases p.test path <;> rfl

theorem firstMatch_append (ps qs : Patterns) :
    firstMatch path (ps ++ qs) = (firstMatch path ps).orElse (firstMatch path qs) := by
  induction ps with
  | nil => rfl
  | cons p ps ih =>
    rw [List.cons_append, firstMatch_cons, firstMatch_cons, ih]
    cases p.test path <;> rfl

/-- Nothing is said of a path that no pattern matches. -/
theorem firstMatch_eq_noMatch_iff :
    firstMatch path ps = .noMatch ↔ ∀ p ∈ ps, ¬ p.Finds path := by
  induction ps with
  | nil => simp [firstMatch]
  | cons p ps ih =>
    rw [firstMatch_cons, List.forall_mem_cons, ← ih, Pattern.Finds, not_not]
    cases p.test path <;> simp [MatchOutcome.orElse]

theorem classify_of_ne_nil (some_pattern : ps ≠ []) : ps.classify path = firstMatch path ps := by
  rw [classify, if_neg (by simpa using some_pattern)]

theorem classify_append (some_pattern : ps ≠ []) (another : qs ≠ []) :
    classify (ps ++ qs) path = (ps.classify path).orElse (qs.classify path) := by
  rw [classify_of_ne_nil (List.append_ne_nil_of_left_ne_nil some_pattern qs), firstMatch_append,
    classify_of_ne_nil some_pattern, classify_of_ne_nil another]

/-- A pattern that finds nothing new changes nothing. -/
theorem classify_insert (some_pattern : ps ++ qs ≠ [])
    (covered : p.Finds path → ∃ q ∈ ps, q.Finds path) :
    classify (ps ++ p :: qs) path = classify (ps ++ qs) path := by
  rw [classify_of_ne_nil (by simp), classify_of_ne_nil some_pattern, firstMatch_append,
    firstMatch_append, firstMatch_cons]
  by_cases decided : firstMatch path ps = .noMatch
  · have unmatched : p.test path = .noMatch := by
      by_contra found
      obtain ⟨q, mem, also⟩ := covered found
      exact firstMatch_eq_noMatch_iff.mp decided q mem also
    rw [unmatched]
    rfl
  · cases outcome : firstMatch path ps with
    | noMatch => exact absurd outcome decided
    | included => rfl
    | excluded => rfl

/-- What an excluding pattern at the end finds was dropped before. -/
theorem admits_append_excluding (some_pattern : ps ≠ []) (excluding : p.kind = .excluding) :
    admits (ps ++ [p]) path = ps.admits path := by
  have last : firstMatch path [p] ≠ .included := by
    rw [firstMatch_cons, Pattern.test, excluding]
    split
    · show MatchOutcome.excluded ≠ .included
      decide
    · show MatchOutcome.noMatch ≠ .included
      decide
  rw [admits, admits, classify_append some_pattern (by simp)]
  cases outcome : ps.classify path with
  | noMatch =>
    rw [classify_of_ne_nil (by simp)]
    exact decide_eq_false last
  | included => rfl
  | excluded => rfl

end Patterns

/-! ## Reading one pattern -/

namespace Pattern

/-- A pattern is what its sign says and the glob behind the sign; the error names the whole text. -/
theorem parse_eq (text : String) :
    parse text =
      match Glob.readFrom .start (splitSign text.toList).2 with
      | .error e => .error (.invalidPattern text e.message)
      | .ok tokens => .ok ⟨(splitSign text.toList).1, text, tokens⟩ := rfl

theorem parse_eq_error {text : String} {e : WatchError} (h : parse text = .error e) :
    ∃ reason, e = .invalidPattern text reason := by
  rw [parse_eq] at h
  split at h
  · cases h
    exact ⟨_, rfl⟩
  · cases h

/-- Another text for the same glob, with the kind changed in some way. -/
structure Rewritten (kinds : PatternKind → PatternKind) (text text' : String) : Prop where
  kind : (splitSign text'.toList).1 = kinds (splitSign text.toList).1
  glob : (splitSign text'.toList).2 = (splitSign text.toList).2

namespace Rewritten

variable {kinds : PatternKind → PatternKind} {text text' : String}

theorem parse_ok (h : Rewritten kinds text text') {p : Pattern} (read : parse text = .ok p) :
    parse text' = .ok ⟨kinds p.kind, text', p.tokens⟩ := by
  rw [parse_eq] at read ⊢
  rw [h.glob, h.kind]
  split at read
  · cases read
  · next tokens found =>
    cases read
    rfl

theorem parse_error (h : Rewritten kinds text text') {reason : String}
    (read : parse text = .error (.invalidPattern text reason)) :
    parse text' = .error (.invalidPattern text' reason) := by
  rw [parse_eq] at read ⊢
  rw [h.glob]
  split at read
  · next e found =>
    simp only [Except.error.injEq, WatchError.invalidPattern.injEq, true_and] at read
    rw [read]
  · cases read

end Rewritten

end Pattern

/-! ## Reading lists -/

namespace Patterns

variable {texts texts' : List String} {ps qs : Patterns}

theorem parse_cons_ok {text : String} :
    parse (text :: texts) = .ok ps ↔
      ∃ p qs, Pattern.parse text = .ok p ∧ parse texts = .ok qs ∧ ps = p :: qs := by
  rw [parse]
  cases Pattern.parse text with
  | error e => simp
  | ok p => cases parse texts <;> simp [Except.map, eq_comm]

/-- A list is read text by text. -/
theorem parse_eq_ok_iff :
    parse texts = .ok ps ↔ List.Forall₂ (fun text p => Pattern.parse text = .ok p) texts ps := by
  induction texts generalizing ps with
  | nil => simp [parse, eq_comm]
  | cons text texts ih =>
    rw [parse_cons_ok, List.forall₂_cons_left_iff]
    simp only [ih]

theorem parse_of_mem (read : parse texts = .ok ps) :
    ∀ text ∈ texts, ∃ p, Pattern.parse text = .ok p := by
  induction texts generalizing ps with
  | nil => exact fun _ mem => absurd mem List.not_mem_nil
  | cons text texts ih =>
    obtain ⟨p, qs, here, behind, -⟩ := parse_cons_ok.mp read
    exact List.forall_mem_cons.mpr ⟨⟨p, here⟩, ih behind⟩

theorem parse_append (read : parse texts = .ok ps) (behind : parse texts' = .ok qs) :
    parse (texts ++ texts') = .ok (ps ++ qs) := by
  rw [parse_eq_ok_iff] at read behind ⊢
  exact List.rel_append read behind

theorem ne_nil_of_parse (read : parse texts = .ok ps) : ps ≠ [] ↔ texts ≠ [] := by
  rw [parse_eq_ok_iff] at read
  cases read <;> simp

/-- A list cannot be read if one of its texts cannot, and the first such text is reported. -/
theorem parse_eq_error_iff {e : WatchError} :
    parse texts = .error e ↔ ∃ before text behind, texts = before ++ text :: behind ∧
      (∀ t ∈ before, ∃ p, Pattern.parse t = .ok p) ∧ Pattern.parse text = .error e := by
  induction texts with
  | nil => simp [parse]
  | cons first texts ih =>
    rw [parse]
    cases read : Pattern.parse first with
    | error fault =>
      constructor
      · intro same
        cases same
        exact ⟨[], first, texts, rfl, fun _ mem => absurd mem List.not_mem_nil, read⟩
      · rintro ⟨before, text, behind, whole, fine, fails⟩
        cases before with
        | nil =>
          obtain ⟨rfl, -⟩ := List.cons.inj whole
          rw [read] at fails
          cases fails
          rfl
        | cons t before =>
          obtain ⟨rfl, -⟩ := List.cons.inj whole
          obtain ⟨p, done⟩ := fine first List.mem_cons_self
          rw [read] at done
          cases done
    | ok p =>
      have later : (parse texts).map (p :: ·) = .error e ↔ parse texts = .error e := by
        cases parse texts <;> simp [Except.map]
      rw [later, ih]
      constructor
      · rintro ⟨before, text, behind, rfl, fine, fails⟩
        exact ⟨first :: before, text, behind, rfl, List.forall_mem_cons.mpr ⟨⟨p, read⟩, fine⟩, fails⟩
      · rintro ⟨before, text, behind, whole, fine, fails⟩
        cases before with
        | nil =>
          obtain ⟨rfl, -⟩ := List.cons.inj whole
          rw [read] at fails
          cases fails
        | cons t before =>
          obtain ⟨rfl, rfl⟩ := List.cons.inj whole
          exact ⟨before, text, behind, rfl, (List.forall_mem_cons.mp fine).2, fails⟩

/-- What is said by a list whose texts have been rewritten. -/
theorem parse_rewritten {kinds : PatternKind → PatternKind}
    (rewritten : List.Forall₂ (Pattern.Rewritten kinds) texts texts') (read : parse texts = .ok ps) :
    ∃ qs, parse texts' = .ok qs ∧ ∀ path, firstMatch path qs = (firstMatch path ps).under kinds := by
  induction rewritten generalizing ps with
  | nil =>
    cases read
    exact ⟨[], rfl, fun _ => rfl⟩
  | @cons text text' texts texts' here _ ih =>
    obtain ⟨p, rest, first, behind, rfl⟩ := parse_cons_ok.mp read
    obtain ⟨qs, also, alike⟩ := ih behind
    refine ⟨_, parse_cons_ok.mpr ⟨_, qs, here.parse_ok first, also, rfl⟩, ?_⟩
    intro path
    have tested : Pattern.test ⟨kinds p.kind, text', p.tokens⟩ path = (p.test path).under kinds := by
      rw [Pattern.test, Pattern.test]
      split
      · exact (MatchOutcome.under_outcome kinds p.kind).symm
      · rfl
    rw [firstMatch_cons, firstMatch_cons, MatchOutcome.under_orElse, tested, alike]

theorem parse_rewritten_error {kinds : PatternKind → PatternKind}
    (rewritten : List.Forall₂ (Pattern.Rewritten kinds) texts texts') {e : WatchError}
    (fails : parse texts = .error e) : ∃ e', parse texts' = .error e' := by
  induction rewritten with
  | nil => cases fails
  | @cons text text' texts texts' here _ ih =>
    cases first : Pattern.parse text with
    | error fault =>
      obtain ⟨reason, rfl⟩ := Pattern.parse_eq_error first
      exact ⟨_, by rw [parse, here.parse_error first]⟩
    | ok p =>
      have behind : parse texts = .error e := by
        rw [parse, first] at fails
        cases later : parse texts with
        | error e' =>
          rw [later] at fails
          cases fails
          rfl
        | ok qs =>
          rw [later] at fails
          cases fails
      obtain ⟨e', also⟩ := ih behind
      exact ⟨e', by rw [parse, here.parse_ok first, also]; rfl⟩

/-- Rewriting the texts of a list changes neither whether it is read nor which patterns match. -/
theorem classify_rewritten {kinds : PatternKind → PatternKind}
    (rewritten : List.Forall₂ (Pattern.Rewritten kinds) texts texts') (some_text : texts ≠ []) :
    ((∃ ps, parse texts = .ok ps) ↔ ∃ qs, parse texts' = .ok qs) ∧
      ∀ ps qs, parse texts = .ok ps → parse texts' = .ok qs →
        ∀ path, qs.classify path = (ps.classify path).under kinds := by
  have some_text' : texts' ≠ [] := by
    rintro rfl
    cases rewritten
    exact some_text rfl
  refine ⟨⟨?_, ?_⟩, ?_⟩
  · rintro ⟨ps, read⟩
    obtain ⟨qs, also, -⟩ := parse_rewritten rewritten read
    exact ⟨qs, also⟩
  · rintro ⟨qs, read⟩
    cases before : parse texts with
    | ok ps => exact ⟨ps, rfl⟩
    | error e =>
      obtain ⟨e', fails⟩ := parse_rewritten_error rewritten before
      rw [read] at fails
      cases fails
  · intro ps qs read read' path
    obtain ⟨qs', also, alike⟩ := parse_rewritten rewritten read
    obtain rfl : qs = qs' := by
      rw [read'] at also
      exact Except.ok.inj also
    rw [classify_of_ne_nil ((ne_nil_of_parse read).mpr some_text),
      classify_of_ne_nil ((ne_nil_of_parse read').mpr some_text'), alike]

end Patterns

/-! ## Signs -/

namespace Pattern

/-- The signs and the kinds that they choose. -/
def signs : List (Char × PatternKind) := [('+', .including), ('-', .excluding)]

/-- A text that starts with a sign. -/
def Signed (text : String) : Prop := ∃ sign ∈ signs, text.toList.head? = some sign.1

instance (text : String) : Decidable (Signed text) :=
  inferInstanceAs (Decidable (∃ sign ∈ signs, text.toList.head? = some sign.1))

/-- The text with the other sign. -/
def swapSign (text : String) : String :=
  match text.toList with
  | '+' :: glob => String.ofList ('-' :: glob)
  | '-' :: glob => String.ofList ('+' :: glob)
  | _ => text

theorem splitSign_sign {sign : Char} {kind : PatternKind} (listed : (sign, kind) ∈ signs)
    (glob : List Char) : splitSign (sign :: glob) = (kind, glob) := by
  simp only [signs, List.mem_cons, List.not_mem_nil, or_false, Prod.mk.injEq] at listed
  rcases listed with ⟨rfl, rfl⟩ | ⟨rfl, rfl⟩
  · rfl
  · rfl

theorem splitSign_bare {text : String} (bare : ¬ Signed text) :
    splitSign text.toList = (.including, text.toList) := by
  unfold splitSign
  split
  · next glob front => exact absurd ⟨('-', .excluding), by decide, by rw [front]; rfl⟩ bare
  · next glob front => exact absurd ⟨('+', .including), by decide, by rw [front]; rfl⟩ bare
  · rfl

theorem rewritten_refl (text : String) : Rewritten id text text := ⟨rfl, rfl⟩

theorem rewritten_plus {text : String} (bare : ¬ Signed text) :
    Rewritten id text ("+" ++ text) := by
  have plus : splitSign ("+" ++ text).toList = (.including, text.toList) := by
    rw [String.toList_append]
    rfl
  exact ⟨by rw [plus, splitSign_bare bare]; rfl, by rw [plus, splitSign_bare bare]⟩

theorem rewritten_swapSign {text : String} (signed : Signed text) :
    Rewritten .swapped text (swapSign text) := by
  obtain ⟨sign, listed, front⟩ := signed
  obtain ⟨glob, spelled⟩ : ∃ glob, text.toList = sign.1 :: glob := by
    cases chars : text.toList with
    | nil => simp [chars] at front
    | cons c glob =>
      rw [chars] at front
      exact ⟨glob, by rw [Option.some.inj front]⟩
  simp only [signs, List.mem_cons, List.not_mem_nil, or_false] at listed
  rcases listed with rfl | rfl
  · have swapped : (swapSign text).toList = '-' :: glob := by simp [swapSign, spelled]
    exact ⟨by rw [swapped, spelled]; rfl, by rw [swapped, spelled]; rfl⟩
  · have swapped : (swapSign text).toList = '+' :: glob := by simp [swapSign, spelled]
    exact ⟨by rw [swapped, spelled]; rfl, by rw [swapped, spelled]; rfl⟩

theorem parse_sign {sign : Char} {kind : PatternKind} (listed : (sign, kind) ∈ signs)
    {glob : List Char} {p : Pattern} :
    parse (String.ofList (sign :: glob)) = .ok p ↔
      ∃ tokens, Glob.readFrom .start glob = .ok tokens ∧
        p = ⟨kind, String.ofList (sign :: glob), tokens⟩ := by
  rw [parse_eq, String.toList_ofList, splitSign_sign listed]
  cases Glob.readFrom .start glob <;> simp [eq_comm]

/-- A second sign stands for itself: the paths that are matched start with it. -/
theorem head?_of_second_sign {sign second : Char} {kind kind' : PatternKind}
    (listed : (sign, kind) ∈ signs) (listed' : (second, kind') ∈ signs) {glob : List Char}
    {p : Pattern} (read : parse (String.ofList (sign :: second :: glob)) = .ok p) {path : String}
    (found : p.Finds path) : path.toList.head? = some second := by
  obtain ⟨tokens, tokens_read, rfl⟩ := (parse_sign listed).mp read
  have matched := finds_iff.mp found
  simp only [signs, List.mem_cons, List.not_mem_nil, or_false, Prod.mk.injEq] at listed'
  rcases listed' with ⟨rfl, -⟩ | ⟨rfl, -⟩
  · exact Glob.head?_of_isMatch (by decide) (by decide) (by decide) tokens_read matched
  · exact Glob.head?_of_isMatch (by decide) (by decide) (by decide) tokens_read matched

end Pattern

/-! ## All laws -/

namespace Patterns

/-- What the first match means for whole lists. -/
structure FirstMatch : Prop where
  /-- Of two lists in a row the second one decides on the paths that the first one leaves open. -/
  joined (texts texts' : List String) (ps qs : Patterns) (some_text : texts ≠ [])
    (another : texts' ≠ []) (read : parse texts = .ok ps) (behind : parse texts' = .ok qs) :
    parse (texts ++ texts') = .ok (ps ++ qs) ∧
      ∀ path, classify (ps ++ qs) path = (ps.classify path).orElse (qs.classify path)
  /-- A pattern that finds nothing but what patterns before it find may stand there or not. -/
  covered (before behind : List String) (text : String) (ps qs : Patterns) (p : Pattern)
    (some_text : before ++ behind ≠ []) (read : parse before = .ok ps)
    (read_behind : parse behind = .ok qs) (here : Pattern.parse text = .ok p)
    (found_before : ∀ path, p.Finds path → ∃ q ∈ ps, q.Finds path) :
    parse (before ++ behind) = .ok (ps ++ qs) ∧
      parse (before ++ text :: behind) = .ok (ps ++ p :: qs) ∧
      ∀ path, classify (ps ++ p :: qs) path = classify (ps ++ qs) path
  /-- An excluding pattern at the end may stand there or not, as far as reports go. -/
  excluding_last (texts : List String) (text : String) (ps : Patterns) (p : Pattern)
    (some_text : texts ≠ []) (read : parse texts = .ok ps) (last : Pattern.parse text = .ok p)
    (excluding : p.kind = .excluding) :
    parse (texts ++ [text]) = .ok (ps ++ [p]) ∧ ∀ path, admits (ps ++ [p]) path = ps.admits path
  /-- With the other sign at every pattern, what was included is excluded and vice versa. -/
  swapped (texts : List String) (some_text : texts ≠ [])
    (signed : ∀ text ∈ texts, Pattern.Signed text) :
    ((∃ ps, parse texts = .ok ps) ↔ ∃ qs, parse (texts.map Pattern.swapSign) = .ok qs) ∧
      ∀ ps qs, parse texts = .ok ps → parse (texts.map Pattern.swapSign) = .ok qs →
        ∀ path, qs.classify path = (ps.classify path).swapped
  /-- A list fails if one of its texts does, and tells of the first one, as it was written. -/
  failing (texts : List String) :
    ((∃ e, parse texts = .error e) ↔ ∃ text ∈ texts, ∃ e, Pattern.parse text = .error e) ∧
      ∀ e, parse texts = .error e → ∃ before text behind reason,
        texts = before ++ text :: behind ∧ (∀ t ∈ before, ∃ p, Pattern.parse t = .ok p) ∧
          Pattern.parse text = .error e ∧ e = .invalidPattern text reason
  /-- All behind one sign is the glob; a second sign is a character of it, which the paths start
  with. -/
  one_sign (sign : Char) (kind : PatternKind) (listed : (sign, kind) ∈ Pattern.signs)
    (glob : List Char) (p : Pattern) :
    (Pattern.parse (String.ofList (sign :: glob)) = .ok p ↔
        ∃ tokens, Glob.readFrom .start glob = .ok tokens ∧
          p = ⟨kind, String.ofList (sign :: glob), tokens⟩) ∧
      ∀ second kind' rest path, (second, kind') ∈ Pattern.signs → glob = second :: rest →
        Pattern.parse (String.ofList (sign :: glob)) = .ok p → p.Finds path →
          path.toList.head? = some second
  /-- Wherever a pattern without a sign stands, it may have a plus sign as well. -/
  bare (before behind : List String) (text : String) (bare : ¬ Pattern.Signed text) :
    ((∃ ps, parse (before ++ text :: behind) = .ok ps) ↔
        ∃ qs, parse (before ++ ("+" ++ text) :: behind) = .ok qs) ∧
      ∀ ps qs, parse (before ++ text :: behind) = .ok ps →
        parse (before ++ ("+" ++ text) :: behind) = .ok qs →
          ∀ path, qs.classify path = ps.classify path

/-- The first match decides, over whole lists of patterns. -/
theorem first_match_decides : FirstMatch where
  joined texts texts' ps qs some_text another read behind :=
    ⟨parse_append read behind, fun _ =>
      classify_append ((ne_nil_of_parse read).mpr some_text) ((ne_nil_of_parse behind).mpr another)⟩
  covered before behind text ps qs p some_text read read_behind here found_before := by
    have without := parse_append read read_behind
    have behind_it : parse (text :: behind) = .ok (p :: qs) :=
      parse_cons_ok.mpr ⟨p, qs, here, read_behind, rfl⟩
    exact ⟨without, parse_append read behind_it, fun path =>
      classify_insert ((ne_nil_of_parse without).mpr some_text) (found_before path)⟩
  excluding_last texts text ps p some_text read last excluding := by
    have single : parse [text] = .ok [p] := parse_cons_ok.mpr ⟨p, [], last, rfl, rfl⟩
    exact ⟨parse_append read single, fun _ =>
      admits_append_excluding ((ne_nil_of_parse read).mpr some_text) excluding⟩
  swapped texts some_text signed := by
    have rewritten : List.Forall₂ (Pattern.Rewritten .swapped) texts
        (texts.map Pattern.swapSign) := by
      rw [List.forall₂_map_right_iff, List.forall₂_same]
      exact fun text mem => Pattern.rewritten_swapSign (signed text mem)
    obtain ⟨readable, alike⟩ := classify_rewritten rewritten some_text
    refine ⟨readable, ?_⟩
    intro ps qs read read' path
    rw [alike ps qs read read' path, MatchOutcome.under_swapped]
  failing texts := by
    refine ⟨⟨?_, ?_⟩, ?_⟩
    · rintro ⟨e, fails⟩
      obtain ⟨before, text, behind, rfl, -, fault⟩ := parse_eq_error_iff.mp fails
      exact ⟨text, by simp, e, fault⟩
    · rintro ⟨text, mem, e, fault⟩
      cases read : parse texts with
      | error e => exact ⟨e, rfl⟩
      | ok ps =>
        obtain ⟨p, here⟩ := parse_of_mem read text mem
        rw [fault] at here
        cases here
    · intro e fails
      obtain ⟨before, text, behind, whole, fine, fault⟩ := parse_eq_error_iff.mp fails
      obtain ⟨reason, told⟩ := Pattern.parse_eq_error fault
      exact ⟨before, text, behind, reason, whole, fine, fault, told⟩
  one_sign sign kind listed glob p := by
    refine ⟨Pattern.parse_sign listed, ?_⟩
    rintro second kind' rest path listed' rfl read found
    exact Pattern.head?_of_second_sign listed listed' read found
  bare before behind text bare := by
    have rewritten : List.Forall₂ (Pattern.Rewritten id) (before ++ text :: behind)
        (before ++ ("+" ++ text) :: behind) :=
      List.rel_append (List.forall₂_same.mpr fun t _ => Pattern.rewritten_refl t)
        (.cons (Pattern.rewritten_plus bare)
          (List.forall₂_same.mpr fun t _ => Pattern.rewritten_refl t))
    obtain ⟨readable, alike⟩ := classify_rewritten rewritten (by simp)
    refine ⟨readable, ?_⟩
    intro ps qs read read' path
    rw [alike ps qs read read' path, MatchOutcome.under_id]

/-- The glob `*.old`. -/
def oldFiles : List Glob.Token :=
  [.anyText, .literal '.', .literal 'o', .literal 'l', .literal 'd']

/-- Files of the past are dropped, whatever else is said of them. -/
def dropsOld : Patterns := [⟨.excluding, "-*.old", oldFiles⟩]

/-- All files whose names are not empty are kept. -/
def keepsAll : Patterns := [⟨.including, "+?*", [.anyByte, .anyText]⟩]

/-- A list in two parts, with a pattern between them that comes too late; with the other signs the
list says the opposite; behind a second sign only paths that start with it are found; of two texts
at fault the first one is reported, with its sign. -/
theorem first_match_decides_twoParts :
    parse (["-*.old"] ++ ["+?*"]) = .ok (dropsOld ++ keepsAll) ∧
      classify (dropsOld ++ keepsAll) "a.OLD" = .excluded ∧
      classify (dropsOld ++ keepsAll) "a/b" = .included ∧
      classify (dropsOld ++ ⟨.including, "*.old", oldFiles⟩ :: keepsAll) "a.OLD" = .excluded ∧
      (∃ qs, parse ["+*.old", "-?*"] = .ok qs ∧ classify qs "a.OLD" = .included) ∧
      (∃ p, Pattern.parse "-+*" = .ok p ∧ ¬ p.Finds "a.OLD") ∧
      ∃ reason, parse ["?", "-a\\", "+\x7d"] = .error (.invalidPattern "-a\\" reason) := by
  have drops : parse ["-*.old"] = .ok dropsOld := by with_unfolding_all rfl
  have keeps : parse ["+?*"] = .ok keepsAll := by with_unfolding_all rfl
  have late : Pattern.parse "*.old" = .ok ⟨.including, "*.old", oldFiles⟩ := by
    with_unfolding_all rfl
  have dropped : classify dropsOld "a.OLD" = .excluded := by decide +kernel
  have open_path : classify dropsOld "a/b" = .noMatch := by decide +kernel
  have kept : classify keepsAll "a/b" = .included := by decide +kernel
  obtain ⟨both, joined⟩ := first_match_decides.joined _ _ _ _ (by simp) (by simp) drops keeps
  have found_before : ∀ path, Pattern.Finds ⟨.including, "*.old", oldFiles⟩ path →
      ∃ q ∈ dropsOld, q.Finds path := by
    intro path found
    have matched : Glob.isMatch oldFiles (Text.toBytes path.toList) = true :=
      Pattern.finds_iff.mp found
    exact ⟨_, List.mem_singleton_self _, Pattern.finds_iff.mpr matched⟩
  obtain ⟨-, -, covered⟩ :=
    first_match_decides.covered _ _ _ _ _ _ (by simp) drops keeps late found_before
  have excluded : classify (dropsOld ++ keepsAll) "a.OLD" = .excluded := by
    rw [joined, dropped]
    rfl
  refine ⟨both, excluded, ?_, ?_, ?_, ?_, ?_⟩
  · rw [joined, open_path, kept]
    rfl
  · rw [covered, excluded]
  · obtain ⟨readable, alike⟩ := first_match_decides.swapped ["-*.old", "+?*"] (by simp) (by decide)
    obtain ⟨qs, read⟩ := readable.mp ⟨_, both⟩
    refine ⟨qs, read, ?_⟩
    rw [alike _ _ both read, excluded]
    rfl
  · have read : Pattern.parse (String.ofList ['-', '+', '*']) =
        .ok ⟨.excluding, "-+*", [.literal '+', .anyText]⟩ := by with_unfolding_all rfl
    refine ⟨_, read, fun found => ?_⟩
    have front := (first_match_decides.one_sign '-' .excluding (by decide) ['+', '*'] _).2
      '+' .including ['*'] _ (by decide) rfl read found
    exact absurd front (by decide)
  · have dangling : Glob.readFrom .start ['a', '\\'] = .error .danglingEscape := by
      with_unfolding_all rfl
    have fault : Pattern.parse "-a\\" =
        .error (.invalidPattern "-a\\" Glob.SyntaxError.danglingEscape.message) := by
      rw [Pattern.parse_eq]
      show (match Glob.readFrom .start ['a', '\\'] with | .error e => _ | .ok tokens => _) = _
      rw [dangling]
    have fine : ∀ t ∈ ["?"], ∃ p, Pattern.parse t = .ok p := by
      intro t mem
      rw [List.mem_singleton.mp mem]
      exact ⟨⟨.including, "?", [.anyByte]⟩, by with_unfolding_all rfl⟩
    exact ⟨_, parse_eq_error_iff.mpr ⟨["?"], _, ["+\x7d"], rfl, fine, fault⟩⟩

end Patterns

end DirWatch
