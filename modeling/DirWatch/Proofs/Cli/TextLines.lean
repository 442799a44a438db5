import DirWatch.Proofs.Cli.Output
import Mathlib.Algebra.GroupWithZero.Nat
import Mathlib.Algebra.Order.BigOperators.Group.List
import Mathlib.Algebra.Order.Group.Nat
import Mathlib.Data.List.Basic

/-!
# Output in text, line by line

What the program writes as text is made of entries: one for each change, and one for each error. A
path or a message is written as it is, so that an entry is a line just if there is no newline in it.
`Cli.Tells` says what can be told from the lines of a text about its entries, and
`Cli.text_output_lines` that this holds of all that is written about events and about the changes
of a file.
-/

namespace DirWatch.Cli

/-- The label of an action, or of an error. -/
def labelOf (action? : Option Action) : String := action?.elim "error" Action.label

/-- What is written about a change or an error. -/
structure Entry where
  /-- The watch that it comes from, if it is told. -/
  handle? : Option Handle
  /-- The action of a change; an error has none. -/
  action? : Option Action
  /-- The path of a change, or the message of an error. -/
  text : String
  deriving DecidableEq

namespace Entry

/-- What stands before the text: the watch, and the label in a column of its own. -/
def front (x : Entry) : List Char :=
  x.handle?.elim [] lineStart ++ padRight actionWidth (labelOf x.action?).toList ++ [' ']

/-- What is written about an entry, without the newline at its end. -/
def line (x : Entry) : List Char := x.front ++ x.text.toList

/-- There is no newline in the text. -/
def Clean (x : Entry) : Prop := '\n' ∉ x.text.toList

instance (x : Entry) : Decidable x.Clean := inferInstanceAs (Decidable ('\n' ∉ x.text.toList))

def ofChange (h : Option Handle) (c : Change) : Entry := ⟨h, c.action, c.path⟩

theorem line_newline (x : Entry) :
    x.line ++ ['\n'] = x.handle?.elim [] lineStart ++ labelledLine (labelOf x.action?) x.text := by
  simp only [line, front, labelledLine, List.append_assoc, List.cons_append, List.nil_append]

end Entry

/-- Entries, each with a newline at its end. -/
def entriesText (entries : List Entry) : List Char := entries.flatMap fun x => x.line ++ ['\n']

/-- What is written about an event: all its changes, or its error. -/
def eventEntries (e : Event) : List Entry :=
  match e.payload with
  | .changes cs => cs.map (Entry.ofChange e.handle)
  | .failure err => [⟨e.handle, none, err.message⟩]

theorem eventText_eq (e : Event) : eventText e = entriesText (eventEntries e) := by
  obtain ⟨h, payload⟩ := e
  cases payload with
  | changes cs =>
    show (cs.flatMap fun c => lineStart h ++ changeLine c) = entriesText (cs.map _)
    rw [entriesText, List.flatMap_map]
    exact List.flatMap_congr fun c _ => (Entry.ofChange h c).line_newline.symm
  | failure err =>
    show lineStart h ++ labelledLine "error" err.message = entriesText [_]
    rw [entriesText, List.flatMap_singleton]
    exact (Entry.line_newline ⟨h, none, err.message⟩).symm

theorem events_text (events : List Event) :
    events.flatMap (writeEvent .text) = entriesText (events.flatMap eventEntries) := by
  rw [entriesText, List.flatMap_assoc]
  exact List.flatMap_congr fun e _ => eventText_eq e

theorem changes_text (changes : List Change) :
    writeChanges .text changes = entriesText (changes.map (Entry.ofChange none)) := by
  show changes.flatMap changeLine = _
  rw [entriesText, List.flatMap_map]
  exact List.flatMap_congr fun c _ => (Entry.ofChange none c).line_newline.symm

/-! ## One entry -/

theorem lineStart_eq (h : Handle) :
    lineStart h = "dirmon#".toList ++ (Nat.toDigits 10 h.number ++ [' ', ' ']) := by
  rw [lineStart, Handle.display, String.toList_append, List.append_assoc]
  congr 2
  rw [Nat.toString_eq_ofList_toDigits, String.toList_ofList]

theorem not_mem_digits {c : Char} (other : c.isDigit = false) (n : Nat) :
    c ∉ Nat.toDigits 10 n := by
  intro mem
  rw [Json.isDigit_of_mem_toDigits mem] at other
  contradiction

theorem newline_not_mem_lineStart (h : Handle) : '\n' ∉ lineStart h := by
  rw [lineStart_eq, List.mem_append, List.mem_append, not_or, not_or]
  exact ⟨by decide, not_mem_digits (by decide) h.number, by decide⟩

theorem digits_injective {m n : Nat} (same : Nat.toDigits 10 m = Nat.toDigits 10 n) : m = n := by
  have value := congrArg (Nat.ofDigitChars 10 · 0) same
  simpa only [Nat.ofDigitChars_ten_toDigits] using value

/-- The beginning of a line tells its watch. -/
theorem eq_of_lineStart_append {h h' : Handle} {rest rest' : List Char}
    (same : lineStart h ++ rest = lineStart h' ++ rest') : h = h' ∧ rest = rest' := by
  simp only [lineStart_eq, List.append_assoc, List.append_right_inj] at same
  obtain ⟨digits, behind⟩ := Text.eq_of_append_sep (not_mem_digits (by decide) h.number)
    (not_mem_digits (by decide) h'.number) same
  exact ⟨congrArg Handle.mk (digits_injective digits), (List.cons.inj behind).2⟩

/-- A label has no blanks, it tells its action, and it does not begin like a handle. -/
theorem labelOf_spec (action? : Option Action) :
    '\n' ∉ (labelOf action?).toList ∧ ' ' ∉ (labelOf action?).toList ∧
      Action.ofLabel? (labelOf action?) = action? ∧
      ∃ c rest, (labelOf action?).toList = c :: rest ∧ c ≠ 'd' := by
  cases action? with
  | none => exact ⟨by decide, by decide, by decide, 'e', _, rfl, by decide⟩
  | some a =>
    refine ⟨?_, ?_, a.ofLabel?_label, ?_⟩
    · cases a <;> decide
    · cases a <;> decide
    · cases a <;> exact ⟨_, _, rfl, by decide⟩

namespace Entry

theorem newline_not_mem_front (x : Entry) : '\n' ∉ x.front := by
  have started : '\n' ∉ x.handle?.elim [] lineStart := by
    cases x.handle? with
    | none => exact List.not_mem_nil
    | some h => exact newline_not_mem_lineStart h
  have filled : '\n' ∉ padRight actionWidth (labelOf x.action?).toList := by
    rw [padRight, List.mem_append, not_or]
    exact ⟨(labelOf_spec x.action?).1,
      fun mem => absurd (List.eq_of_mem_replicate mem) (by decide)⟩
  rw [front, List.mem_append, List.mem_append, not_or, not_or]
  exact ⟨⟨started, filled⟩, by decide⟩

theorem count_line (x : Entry) : x.line.count '\n' = x.text.toList.count '\n' := by
  rw [line, List.count_append, List.count_eq_zero_of_not_mem x.newline_not_mem_front, Nat.zero_add]

theorem newline_not_mem_line {x : Entry} : '\n' ∉ x.line ↔ x.Clean := by
  rw [line, List.mem_append, not_or, Clean]
  exact and_iff_right x.newline_not_mem_front

/-- What stands behind the watch in a line: the label, a blank, and all the rest. -/
def behind (x : Entry) : List Char :=
  (labelOf x.action?).toList ++ ' ' ::
    (List.replicate (actionWidth - (labelOf x.action?).toList.length) ' ' ++ x.text.toList)

theorem line_eq (x : Entry) : x.line = x.handle?.elim [] lineStart ++ x.behind := by
  have blanks : ∀ n, List.replicate n ' ' ++ ' ' :: x.text.toList =
      ' ' :: (List.replicate n ' ' ++ x.text.toList) := by
    intro n
    rw [List.append_cons, ← List.replicate_succ', List.replicate_succ, List.cons_append]
  rw [line, front, padRight, behind, List.append_assoc, List.append_assoc, List.append_assoc,
    List.singleton_append, blanks]

theorem eq_of_behind {x y : Entry} (same : x.behind = y.behind) :
    x.action? = y.action? ∧ x.text = y.text := by
  obtain ⟨-, no_blank, action, -⟩ := labelOf_spec x.action?
  obtain ⟨-, no_blank', action', -⟩ := labelOf_spec y.action?
  obtain ⟨labels, rest⟩ := Text.eq_of_append_sep no_blank no_blank' same
  rw [labels] at rest
  rw [String.toList_inj.mp labels] at action
  exact ⟨action.symm.trans action', String.toList_inj.mp (List.append_cancel_left rest)⟩

/-- A line with a watch and one without differ in their first characters. -/
theorem lineStart_ne_behind (h : Handle) (rest : List Char) (x : Entry) :
    lineStart h ++ rest ≠ x.behind := by
  obtain ⟨-, -, -, c, others, label, other⟩ := labelOf_spec x.action?
  intro same
  rw [lineStart_eq, behind, label] at same
  exact other (List.cons.inj same).1.symm

/-- A line tells its entry. -/
theorem line_injective {x y : Entry} (same : x.line = y.line) : x = y := by
  obtain ⟨h, action, text⟩ := x
  obtain ⟨h', action', text'⟩ := y
  rw [line_eq, line_eq] at same
  cases h with
  | none =>
    cases h' with
    | none =>
      obtain ⟨rfl, rfl⟩ := eq_of_behind same
      rfl
    | some h' => exact absurd same.symm (lineStart_ne_behind h' _ _)
  | some h =>
    cases h' with
    | none => exact absurd same (lineStart_ne_behind h _ _)
    | some h' =>
      obtain ⟨rfl, behind⟩ := eq_of_lineStart_append same
      obtain ⟨rfl, rfl⟩ := eq_of_behind behind
      rfl

end Entry

/-! ## Many entries -/

/-- What the lines of a text tell of the entries that it is made of. -/
structure Tells (text : List Char) (told : List Entry) : Prop where
  /-- There is a newline at the end of each entry, and all that are in paths and messages. -/
  count : text.count '\n' = told.length + (told.map fun x => x.text.toList.count '\n').sum
  /-- There are as many lines as entries just if there is no newline in any path or message. -/
  one_each : text.count '\n' = told.length ↔ ∀ x ∈ told, x.Clean
  /-- Just then each entry is a line of its own. -/
  cut : Text.pieces '\n' text = told.map Entry.line ++ [[]] ↔ ∀ x ∈ told, x.Clean
  /-- Then no other such entries make the same text. -/
  only : (∀ x ∈ told, x.Clean) → ∀ others : List Entry, (∀ x ∈ others, x.Clean) →
    entriesText others = text → others = told

theorem count_entriesText (told : List Entry) : (entriesText told).count '\n' =
    told.length + (told.map fun x => x.text.toList.count '\n').sum := by
  induction told with
  | nil => rfl
  | cons x rest ih =>
    rw [entriesText] at ih
    rw [entriesText, List.flatMap_cons, List.count_append, ih, List.count_append, x.count_line,
      List.length_cons, List.map_cons, List.sum_cons, List.count_singleton_self]
    omega

theorem pieces_entriesText {told : List Entry} (clean : ∀ x ∈ told, x.Clean) :
    Text.pieces '\n' (entriesText told) = told.map Entry.line ++ [[]] := by
  induction told with
  | nil => rfl
  | cons x rest ih =>
    obtain ⟨first, others⟩ := List.forall_mem_cons.mp clean
    show Text.pieces '\n' (x.line ++ ['\n'] ++ entriesText rest) = _
    rw [List.append_assoc, List.singleton_append,
      Text.pieces_append (Entry.newline_not_mem_line.mpr first), ih others]
    rfl

theorem tells_entriesText (told : List Entry) : Tells (entriesText told) told where
  count := count_entriesText told
  one_each := by
    rw [count_entriesText, Nat.add_eq_left, List.sum_eq_zero_iff, List.forall_mem_map]
    exact forall₂_congr fun x _ => List.count_eq_zero
  cut := by
    constructor
    · intro cut x mem
      rw [← Entry.newline_not_mem_line]
      apply Text.not_mem_of_mem_pieces
      rw [cut]
      exact List.mem_append_left _ (List.mem_map_of_mem mem)
    · exact pieces_entriesText
  only clean others clean_others same := by
    have lines := pieces_entriesText clean_others
    rw [same, pieces_entriesText clean, List.append_left_inj] at lines
    exact (List.map_injective_iff.mpr fun _ _ => Entry.line_injective) lines.symm

/-- All that is written as text tells its entries: about events, and about the changes of a file
that `decode` reads. -/
theorem text_output_lines (events : List Event) (changes : List Change) (host : Host)
    (standing : Option String) (words : List String) :
    Tells (events.flatMap (writeEvent .text)) (events.flatMap eventEntries) ∧
    Tells (writeChanges .text changes) (changes.map (Entry.ofChange none)) ∧
    ∀ (inv : Invocation) (file : String) (config : Config) (content : List UInt8),
      Invocation.read standing words = .ok inv → inv.command = .decode file →
      inv.configure host.tree = .ok config → config.cli.format = .text →
      host.tree.read (RawPath.ofString file) = .ok content →
      ∃ text : List Char, run host standing words = ⟨.success, text, []⟩ ∧
        Tells text
          ((Record.decode content.toArray content.length).map (Entry.ofChange none)) := by
  refine ⟨?_, ?_, ?_⟩
  · rw [events_text]
    exact tells_entriesText _
  · rw [changes_text]
    exact tells_entriesText _
  · intro inv file config content line decodes configured asked found
    refine ⟨_, run_decode line decodes configured found, ?_⟩
    rw [asked, changes_text]
    exact tells_entriesText _

/-- The bytes of a file with one record that tells of an added file. -/
def addedFile (name : String) : List UInt8 :=
  [0, 0, 0, 0, 1, 0, 0, 0, UInt8.ofNat (2 * name.length), 0, 0, 0] ++
    name.toList.flatMap fun c => [UInt8.ofNat c.toNat, 0]

/-- An event with two changes is two lines, and a file with one record is one. -/
theorem text_output_lines_cleanNames :
    Text.pieces '\n'
        (writeEvent .text ⟨⟨5⟩, .changes [⟨.added, "a.txt"⟩, ⟨.renamedTo, "dir/b.txt"⟩]⟩) =
      ["dirmon#5  added        a.txt".toList, "dirmon#5  renamed_to   dir/b.txt".toList, []] ∧
    ∃ text : List Char,
      run (hostWith "dump" (addedFile "a b")) none ["decode", "dump"] = ⟨.success, text, []⟩ ∧
      Text.pieces '\n' text = ["added        a b".toList, []] := by
  obtain ⟨event, -, file⟩ := text_output_lines
    [⟨⟨5⟩, .changes [⟨.added, "a.txt"⟩, ⟨.renamedTo, "dir/b.txt"⟩]⟩] []
    (hostWith "dump" (addedFile "a b")) none ["decode", "dump"]
  constructor
  · have clean : ∀ x ∈ eventEntries ⟨⟨5⟩, .changes [⟨.added, "a.txt"⟩, ⟨.renamedTo, "dir/b.txt"⟩]⟩,
        x.Clean := by decide
    exact event.cut.mpr clean
  · have line : Invocation.read none ["decode", "dump"] = .ok ⟨none, none, .decode "dump"⟩ := by
      decide +kernel
    have found : (hostWith "dump" (addedFile "a b")).tree.read (RawPath.ofString "dump") =
        .ok (addedFile "a b") := by decide +kernel
    have decoded : Record.decode (addedFile "a b").toArray (addedFile "a b").length =
        [⟨.added, "a b"⟩] := by decide +kernel
    obtain ⟨text, output, tells⟩ := file _ "dump" _ _ line rfl rfl rfl found
    rw [decoded] at tells
    exact ⟨text, output, tells.cut.mpr (by decide)⟩

/-- A name with a newline in it looks like two changes: in a file with one record, and in an event
with one change. -/
theorem forged_change :
    Record.decode (addedFile "n\nadded        l").toArray (addedFile "n\nadded        l").length =
      [⟨.added, "n\nadded        l"⟩] ∧
    run (hostWith "dump" (addedFile "n\nadded        l")) none ["decode", "dump"] =
      ⟨.success, writeChanges .text [⟨.added, "n"⟩, ⟨.added, "l"⟩], []⟩ ∧
    writeEvent .text ⟨⟨1⟩, .changes [⟨.added, "n\ndirmon#1  removed      l"⟩]⟩ =
      writeEvent .text ⟨⟨1⟩, .changes [⟨.added, "n"⟩, ⟨.removed, "l"⟩]⟩ ∧
    (writeEvent .text ⟨⟨1⟩, .changes [⟨.added, "n\ndirmon#1  removed      l"⟩]⟩).count '\n' = 2 :=
  ⟨by decide +kernel, by with_unfolding_all rfl, by decide +kernel, by decide +kernel⟩

end DirWatch.Cli
