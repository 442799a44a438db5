import DirWatch.Change.FilterText
import DirWatch.Proofs.Text.Pieces
import Mathlib.Algebra.Group.Nat.Defs
import Mathlib.Data.List.Basic
import Mathlib.Data.List.TakeWhile

/-!
# Filters and their texts

`FilterText` says which texts stand for a filter, apart from any reader: items with bars between
them and blanks around them, each a class name or some hexadecimal digits. Every such text is read
as the filter that it stands for (`Filter.ofText_eq`), and the text that is written for a filter
stands for it (`Filter.filterText_toText`), whatever bits are set.
-/

namespace DirWatch

/-! ## Blanks and words -/

namespace Text

/-- A text of blanks alone. -/
def Blanks (s : List Char) : Prop := ∀ c ∈ s, isBlank c = true

/-- A word without blanks. -/
def Solid (s : List Char) : Prop := s ≠ [] ∧ ∀ c ∈ s, isBlank c = false

theorem trimEnd_append {s b : List Char} (solid : Solid s) (blanks : Blanks b) :
    trimEnd (s ++ b) = s := by
  have blanks' : ∀ c ∈ b.reverse, isBlank c = true :=
    fun c mem => blanks c (List.mem_reverse.mp mem)
  have front : s.reverse.dropWhile isBlank = s.reverse := by
    match reversed : s.reverse with
    | [] => rfl
    | c :: r =>
      have mem : c ∈ s := List.mem_reverse.mp (reversed ▸ List.mem_cons_self)
      exact List.dropWhile_cons_of_neg (by simp [solid.2 c mem])
  rw [trimEnd, List.reverse_append, List.dropWhile_append_of_pos blanks', front,
    List.reverse_reverse]

/-- Trimming takes blanks off a word, and nothing else. -/
theorem trim_append {b s b' : List Char} (before : Blanks b) (solid : Solid s)
    (after : Blanks b') : trim (b ++ (s ++ b')) = s := by
  have front : (s ++ b').dropWhile isBlank = s ++ b' := by
    obtain ⟨c, r, rfl⟩ := List.exists_cons_of_ne_nil solid.1
    exact List.dropWhile_cons_of_neg (by simp [solid.2 c List.mem_cons_self])
  rw [trim, List.dropWhile_append_of_pos before, front, trimEnd_append solid after]

theorem ne_nil_of_trim {s : List Char} {c : Char} (mem : c ∈ s) (visible : isBlank c = false) :
    trim s ≠ [] := by
  intro nothing
  have all_blank : ∀ d ∈ s.dropWhile isBlank, isBlank d = true := by
    rw [trim, trimEnd, List.reverse_eq_nil_iff, List.dropWhile_eq_nil_iff] at nothing
    exact fun d mem => nothing d (List.mem_reverse.mpr mem)
  have none_left : s.dropWhile isBlank = [] := by
    cases rest : s.dropWhile isBlank with
    | nil => rfl
    | cons d r =>
      have front := List.head?_dropWhile_not isBlank s
      rw [rest] at front all_blank
      simp [all_blank d List.mem_cons_self] at front
  rw [List.dropWhile_eq_nil_iff] at none_left
  rw [none_left c mem] at visible
  contradiction

/-! ## Hexadecimal digits -/

/-- The digits that are written for a number are read as this number. -/
theorem hexValue?_hexText (n : Nat) : hexValue? (hexText n) = some n := by
  have digit : ∀ d < 16, hexDigit? d.digitChar = some d := by decide
  rw [hexText]
  induction n using Nat.strongRecOn with
  | ind n ih =>
    rcases Nat.lt_or_ge n 16 with small | large
    · rw [Nat.toDigits_of_lt_base small, hexValue?, List.foldlM_cons, digit n small]
      simp
    · have before := ih (n / 16) (by omega)
      rw [hexValue?] at before
      rw [Nat.toDigits_of_base_le (by decide) large, hexValue?, List.foldlM_append, before]
      simp only [Option.bind_eq_bind, Option.bind_some, List.foldlM_cons, List.foldlM_nil,
        digit (n % 16) (Nat.mod_lt n (by decide)), Option.map_some]
      simp
      omega

/-- All characters of hexadecimal digits are digits. -/
theorem isSome_hexDigit? {digits : List Char} {n : Nat} (value : hexValue? digits = some n) :
    ∀ c ∈ digits, (hexDigit? c).isSome = true := by
  have folds : ∀ (digits : List Char) (m n : Nat),
      digits.foldlM (fun n c => (hexDigit? c).map (16 * n + ·)) m = some n →
        ∀ c ∈ digits, (hexDigit? c).isSome = true := by
    intro digits
    induction digits with
    | nil => exact fun m n _ c mem => absurd mem List.not_mem_nil
    | cons d digits ih =>
      intro m n value c mem
      rw [List.foldlM_cons] at value
      obtain ⟨k, first, rest⟩ := Option.bind_eq_some_iff.mp value
      obtain ⟨v, digit, -⟩ := Option.map_eq_some_iff.mp first
      rcases List.mem_cons.mp mem with rfl | mem
      · rw [digit]
        rfl
      · exact ih k n rest c mem
  exact folds digits 0 n value

/-- A hexadecimal digit lies in one of three ranges. -/
theorem hexDigit_ranges {c : Char} (digit : (hexDigit? c).isSome = true) :
    (48 ≤ c.toNat ∧ c.toNat ≤ 57) ∨ (97 ≤ c.toNat ∧ c.toNat ≤ 102) ∨
      (65 ≤ c.toNat ∧ c.toNat ≤ 70) := by
  have number : c.toNat = c.val.toNat := rfl
  simp only [hexDigit?, Char.le_def, UInt32.le_iff_toNat_le] at digit
  split at digit
  · next range =>
    left
    simp at range
    omega
  · split at digit
    · next range =>
      right
      left
      simp at range
      omega
    · split at digit
      · next range =>
        right
        right
        simp at range
        omega
      · simp at digit

end Text

namespace Filter

/-! ## What texts stand for -/

/-- An item: the name of a class, or hexadecimal digits for bits, with a plus sign or without. -/
inductive ItemText : List Char → Filter → Prop
  | named {c : String × Filter} (mem : c ∈ classes) : ItemText c.1.toList c.2
  | hex {sign digits : List Char} {n : Nat} (signed : sign = [] ∨ sign = ['+'])
    (some_digit : digits ≠ []) (value : Text.hexValue? digits = some n) (fits : n < UInt32.size) :
    ItemText ('0' :: 'x' :: (sign ++ digits)) ⟨UInt32.ofNat n⟩

/-- Items with bars between them and blanks around them, and the union of what they stand for. -/
inductive ItemsText : List Char → Filter → Prop
  | last {b item b' : List Char} {f : Filter} (before : Text.Blanks b) (text : ItemText item f)
    (after : Text.Blanks b') : ItemsText (b ++ (item ++ b')) f
  | more {b item b' s : List Char} {f g : Filter} (before : Text.Blanks b) (text : ItemText item f)
    (after : Text.Blanks b') (rest : ItemsText s g) :
    ItemsText (b ++ (item ++ b') ++ '|' :: s) (f.union g)

/-- The texts that stand for a filter: items, or nothing but blanks for the empty one. -/
inductive FilterText : List Char → Filter → Prop
  | blank {s : List Char} (blanks : Text.Blanks s) : FilterText s empty
  | items {s : List Char} {f : Filter} (text : ItemsText s f) : FilterText s f

/-! ## Reading -/

theorem ItemText.solid {item : List Char} {f : Filter} (text : ItemText item f) :
    Text.Solid item ∧ '|' ∉ item := by
  cases text with
  | @named c mem =>
    have names : (classes.all fun c => !c.1.toList.isEmpty &&
        c.1.toList.all fun d => !Text.isBlank d && d ≠ '|') = true := by decide
    have name := List.all_eq_true.mp names c mem
    simp only [Bool.and_eq_true, Bool.not_eq_true', List.isEmpty_eq_false_iff, List.all_eq_true,
      decide_eq_true_eq] at name
    obtain ⟨some_char, all⟩ := name
    exact ⟨⟨some_char, fun d mem => (all d mem).1⟩, fun bar => (all _ bar).2 rfl⟩
  | @hex sign digits n signed some_digit value fits =>
    have all : ∀ d ∈ '0' :: 'x' :: (sign ++ digits), Text.isBlank d = false ∧ d ≠ '|' := by
      intro d mem
      simp only [List.mem_cons, List.mem_append] at mem
      rcases mem with rfl | rfl | mem | mem
      · decide
      · decide
      · rcases signed with rfl | rfl
        · simp at mem
        · rw [List.mem_singleton.mp mem]
          decide
      · have ranges := Text.hexDigit_ranges (Text.isSome_hexDigit? value d mem)
        constructor
        · simp only [Text.isBlank, Bool.or_eq_false_iff, Bool.and_eq_false_iff,
            decide_eq_false_iff_not, beq_eq_false_iff_ne]
          omega
        · rintro rfl
          revert ranges
          decide
    exact ⟨⟨by simp, fun d mem => (all d mem).1⟩, fun bar => (all _ bar).2 rfl⟩

theorem hexBits?_eq {sign digits : List Char} {n : Nat} (signed : sign = [] ∨ sign = ['+'])
    (some_digit : digits ≠ []) (value : Text.hexValue? digits = some n) (fits : n < UInt32.size) :
    hexBits? (sign ++ digits) = some (UInt32.ofNat n) := by
  obtain ⟨d, ds, rfl⟩ := List.exists_cons_of_ne_nil some_digit
  have plus : d ≠ '+' := by
    rintro rfl
    exact absurd (Text.isSome_hexDigit? value '+' List.mem_cons_self) (by decide)
  rcases signed with rfl | rfl
  · rw [List.nil_append, hexBits?.eq_def]
    simp [plus, value, fits]
  · rw [List.singleton_append, hexBits?.eq_def]
    simp [value, fits]

theorem ofItem_eq {item : List Char} {f : Filter} (text : ItemText item f) :
    ofItem item = .ok f := by
  cases text with
  | named mem =>
    have names : ∀ c ∈ classes, ofItem c.1.toList = .ok c.2 := by decide
    exact names _ mem
  | hex signed some_digit value fits =>
    rw [ofItem, hexBits?_eq signed some_digit value fits]

theorem union_empty (f : Filter) : f.union empty = f := by
  simp [union, empty]

theorem ofItems_eq {s : List Char} {f : Filter} (text : ItemsText s f) :
    ofItems (Text.pieces '|' s) = .ok f := by
  have piece : ∀ {b item b' : List Char} {f : Filter}, Text.Blanks b → ItemText item f →
      Text.Blanks b' → '|' ∉ b ++ (item ++ b') ∧ ofItem (Text.trim (b ++ (item ++ b'))) = .ok f := by
    intro b item b' f before text after
    have bar : ∀ {b : List Char}, Text.Blanks b → '|' ∉ b :=
      fun blanks mem => absurd (blanks '|' mem) (by decide)
    obtain ⟨solid, whole⟩ := text.solid
    refine ⟨?_, ?_⟩
    · simp only [List.mem_append, not_or]
      exact ⟨bar before, whole, bar after⟩
    · rw [Text.trim_append before solid after, ofItem_eq text]
  induction text with
  | last before text after =>
    obtain ⟨whole, item⟩ := piece before text after
    rw [Text.pieces_of_whole whole, ofItems, item]
    simp only [ofItems, Except.map, union_empty]
  | more before text after _ ih =>
    obtain ⟨whole, item⟩ := piece before text after
    rw [Text.pieces_append whole, ofItems, item]
    simp only [ih, Except.map]

theorem ItemsText.visible {s : List Char} {f : Filter} (text : ItemsText s f) :
    ∃ c ∈ s, Text.isBlank c = false := by
  cases text with
  | @last b item b' f before text after =>
    obtain ⟨⟨some_char, visible⟩, -⟩ := text.solid
    obtain ⟨c, r, rfl⟩ := List.exists_cons_of_ne_nil some_char
    exact ⟨c, by simp, visible c List.mem_cons_self⟩
  | more => exact ⟨'|', by simp, by decide⟩

/-- A text is read as the filter that it stands for. -/
theorem ofText_eq {text : String} {f : Filter} (stands : FilterText text.toList f) :
    ofText text = .ok f := by
  rw [ofText]
  cases stands with
  | blank blanks => rw [if_pos (Text.trim_eq_nil_of_forall blanks)]
  | items items =>
    obtain ⟨c, mem, visible⟩ := items.visible
    rw [if_neg (Text.ne_nil_of_trim mem visible), ofItems_eq items]

/-! ## Bits -/

/-- Tells whether a filter has the bit with a number. -/
def bit (f : Filter) (i : Nat) : Bool := f.bits.toNat.testBit i

theorem ext_bit {f g : Filter} (same : ∀ i, f.bit i = g.bit i) : f = g := by
  obtain ⟨f⟩ := f
  obtain ⟨g⟩ := g
  congr 1
  exact UInt32.toNat_inj.mp (Nat.eq_of_testBit_eq same)

theorem bit_empty (i : Nat) : empty.bit i = false := Nat.zero_testBit i

theorem bit_union (f g : Filter) (i : Nat) : (f.union g).bit i = (f.bit i || g.bit i) := by
  rw [bit, union, UInt32.toNat_or, Nat.testBit_or]
  rfl

theorem bit_inter (f g : Filter) (i : Nat) : (f.inter g).bit i = (f.bit i && g.bit i) := by
  rw [bit, inter, UInt32.toNat_and, Nat.testBit_and]
  rfl

theorem bit_of_ge {f : Filter} {i : Nat} (beyond : 32 ≤ i) : f.bit i = false := by
  apply Nat.testBit_lt_two_pow
  have bound : f.bits.toNat < 2 ^ 32 := f.bits.toNat_lt
  exact Nat.lt_of_lt_of_le bound (Nat.pow_le_pow_right (by decide) beyond)

theorem bit_diff (f g : Filter) (i : Nat) : (f.diff g).bit i = (f.bit i && !g.bit i) := by
  rcases Nat.lt_or_ge i 32 with below | beyond
  · have negated : (~~~g.bits).toNat.testBit i = !g.bit i := by
      rw [← UInt32.toNat_toBitVec, UInt32.toBitVec_not, BitVec.testBit_toNat, BitVec.getLsbD_not]
      simp only [below, decide_true, Bool.true_and]
      rw [← BitVec.testBit_toNat]
      rfl
    rw [bit, diff, UInt32.toNat_and, Nat.testBit_and, negated]
    rfl
  · rw [bit_of_ge beyond, bit_of_ge beyond, Bool.false_and]

/-- The filter with one bit. -/
def oneBit (i : Nat) : Filter := ⟨UInt32.ofNat (2 ^ i)⟩

theorem bit_oneBit {i : Nat} (below : i < 32) (j : Nat) : (oneBit i).bit j = decide (i = j) := by
  have fits : 2 ^ i < 2 ^ 32 := Nat.pow_lt_pow_right (by decide) below
  rw [bit, oneBit, UInt32.toNat_ofNat_of_lt' fits, Nat.testBit_two_pow]

theorem contains_oneBit {i : Nat} (below : i < 32) (f : Filter) :
    f.contains (oneBit i) = f.bit i := by
  rw [contains, Bool.eq_iff_iff, decide_eq_true_iff]
  constructor
  · intro same
    have at_bit := bit_inter f (oneBit i) i
    rw [same, bit_oneBit below, decide_eq_true rfl, Bool.and_true] at at_bit
    exact at_bit.symm
  · intro set
    apply ext_bit
    intro j
    rw [bit_inter, bit_oneBit below]
    by_cases here : i = j
    · subst here
      rw [set]
      rfl
    · simp [here]

/-! ## Writing -/

/-- The classes by the numbers of their bits. -/
def numbered : List (Nat × String) :=
  [(0, "FILE_NAME"), (1, "DIR_NAME"), (2, "ATTRIBUTES"), (3, "SIZE"), (4, "LAST_WRITE"),
    (5, "LAST_ACCESS"), (6, "CREATION"), (8, "SECURITY")]

theorem classes_eq : classes = numbered.map fun p => (p.2, oneBit p.1) := by decide

theorem numbered_lt : ∀ p ∈ numbered, p.1 < 32 := by decide

/-- A class has one bit. -/
theorem exists_oneBit {c : String × Filter} (mem : c ∈ classes) :
    ∃ i < 32, c.2 = oneBit i := by
  rw [classes_eq] at mem
  obtain ⟨p, listed, rfl⟩ := List.mem_map.mp mem
  exact ⟨p.1, numbered_lt p listed, rfl⟩

/-- The union of some filters. -/
def unionAll (fs : List Filter) : Filter := fs.foldr union empty

theorem bit_unionAll (fs : List Filter) (i : Nat) : (unionAll fs).bit i = fs.any (bit · i) := by
  induction fs with
  | nil => exact bit_empty i
  | cons f fs ih =>
    show (f.union (unionAll fs)).bit i = _
    rw [bit_union, ih]
    rfl

theorem unionAll_append (fs gs : List Filter) :
    unionAll (fs ++ gs) = (unionAll fs).union (unionAll gs) := by
  apply ext_bit
  intro i
  rw [bit_union, bit_unionAll, bit_unionAll, bit_unionAll, List.any_append]

theorem everyClass_eq : everyClass = unionAll (classes.map Prod.snd) := by decide

/-- A filter is the union of the classes that it contains and of the bits that have no name. -/
theorem union_of_parts (f : Filter) :
    (unionAll ((classes.filter fun c => f.contains c.2).map Prod.snd)).union
      (f.diff everyClass) = f := by
  apply ext_bit
  intro i
  rw [bit_union, bit_diff, everyClass_eq, bit_unionAll, bit_unionAll, Bool.eq_iff_iff]
  simp only [Bool.or_eq_true, Bool.and_eq_true, Bool.not_eq_true', List.any_eq_true,
    List.any_eq_false, List.mem_map, List.mem_filter, Bool.not_eq_true]
  constructor
  · rintro (⟨g, ⟨c, ⟨mem, contained⟩, rfl⟩, set⟩ | ⟨set, -⟩)
    · obtain ⟨k, below, single⟩ := exists_oneBit mem
      rw [single, contains_oneBit below] at contained
      rw [single, bit_oneBit below, decide_eq_true_iff] at set
      rw [← set]
      exact contained
    · exact set
  · intro set
    by_cases named : ∃ c ∈ classes, c.2.bit i = true
    · obtain ⟨c, mem, at_class⟩ := named
      obtain ⟨k, below, single⟩ := exists_oneBit mem
      refine .inl ⟨c.2, ⟨c, ⟨mem, ?_⟩, rfl⟩, at_class⟩
      rw [single, bit_oneBit below, decide_eq_true_iff] at at_class
      rw [single, contains_oneBit below, at_class]
      exact set
    · refine .inr ⟨set, ?_⟩
      rintro g ⟨c, mem, rfl⟩
      cases at_class : c.2.bit i with
      | false => rfl
      | true => exact absurd ⟨c, mem, at_class⟩ named

/-- The items of a filter, in the words of its bits: the names of the set bits that have one, and
one hexadecimal item for the others. -/
theorem items_eq (f : Filter) : f.items =
    ((numbered.filter fun p => f.bits.toNat.testBit p.1).map Prod.snd) ++
      if f.bits &&& ~~~0x17f = 0 then []
      else ["0x" ++ String.ofList (Text.hexText (f.bits &&& ~~~0x17f).toNat)] := by
  have named : (classes.filter fun c => f.contains c.2).map Prod.fst =
      (numbered.filter fun p => f.bits.toNat.testBit p.1).map Prod.snd := by
    rw [classes_eq, List.filter_map, List.map_map]
    congr 1
    apply List.filter_congr
    intro p mem
    exact contains_oneBit (numbered_lt p mem) f
  have rest : (f.diff everyClass).bits = f.bits &&& ~~~0x17f := by
    rw [diff, everyClass_bits]
  simp only [items, named, isEmpty, rest, beq_iff_eq]

theorem toText_eq (f : Filter) : f.toText = " | ".intercalate f.items := by
  rw [← String.toList_inj, toText, String.toList_ofList, String.toList_intercalate,
    Text.glue_eq_intercalate]

/-- A word in front of others goes on with them. -/
theorem ItemsText.cons {item s : List Char} {f g : Filter} (text : ItemText item f)
    (rest : ItemsText s g) : ItemsText (item ++ (" | ".toList ++ s)) (f.union g) := by
  have space : Text.Blanks [' '] := by
    intro c mem
    rw [List.mem_singleton.mp mem]
    decide
  have spaced : ItemsText (' ' :: s) g := by
    cases rest with
    | last before text after =>
      rw [← List.cons_append]
      refine .last ?_ text after
      exact List.forall_mem_cons.mpr ⟨by decide, before⟩
    | more before text after rest =>
      rw [← List.cons_append, ← List.cons_append]
      refine .more ?_ text after rest
      exact List.forall_mem_cons.mpr ⟨by decide, before⟩
  have regrouped : item ++ (" | ".toList ++ s) = [] ++ (item ++ [' ']) ++ '|' :: ' ' :: s := by
    simp
  rw [regrouped]
  exact .more (fun _ mem => absurd mem List.not_mem_nil) text space spaced

/-- Some items, glued with bars between them. -/
theorem itemsText_glue {items : List (String × Filter)}
    (texts : ∀ p ∈ items, ItemText p.1.toList p.2)
    (some_item : items ≠ []) :
    ItemsText (Text.glue " | ".toList (items.map fun p => p.1.toList))
      (unionAll (items.map Prod.snd)) := by
  have none : Text.Blanks [] := fun _ mem => absurd mem List.not_mem_nil
  induction items with
  | nil => exact absurd rfl some_item
  | cons p items ih =>
    have first := texts p List.mem_cons_self
    match items with
    | [] =>
      show ItemsText p.1.toList (p.2.union empty)
      rw [union_empty, ← List.nil_append p.1.toList, ← List.append_nil p.1.toList]
      exact .last none first none
    | q :: items =>
      have rest := ih (fun p mem => texts p (List.mem_cons_of_mem _ mem)) (by simp)
      have whole := rest.cons first
      rw [← List.append_assoc] at whole
      exact whole

/-- The hexadecimal item for some bits. -/
theorem itemText_hex (f : Filter) :
    ItemText ("0x" ++ String.ofList (Text.hexText f.bits.toNat)).toList f := by
  have text : ("0x" ++ String.ofList (Text.hexText f.bits.toNat)).toList =
      '0' :: 'x' :: ([] ++ Text.hexText f.bits.toNat) := by simp
  have item : ItemText ('0' :: 'x' :: ([] ++ Text.hexText f.bits.toNat))
      ⟨UInt32.ofNat f.bits.toNat⟩ :=
    .hex (.inl rfl) Nat.toDigits_ne_nil (Text.hexValue?_hexText _) f.bits.toNat_lt
  rw [text]
  rwa [UInt32.ofNat_toNat] at item

/-- The text that is written for a filter stands for it. -/
theorem filterText_toText (f : Filter) : FilterText f.toText.toList f := by
  have whole := f.union_of_parts
  obtain ⟨named, named_eq⟩ : ∃ named, named = classes.filter fun c => f.contains c.2 := ⟨_, rfl⟩
  have texts : ∀ p ∈ named, ItemText p.1.toList p.2 := by
    intro p mem
    rw [named_eq] at mem
    exact .named (List.mem_of_mem_filter mem)
  rw [toText, String.toList_ofList, items, ← named_eq]
  rw [← named_eq] at whole
  by_cases none_left : (f.diff everyClass).isEmpty
  · have nothing : f.diff everyClass = empty := by
      rw [isEmpty, beq_iff_eq] at none_left
      exact congrArg Filter.mk none_left
    rw [nothing, union_empty] at whole
    rw [if_pos none_left, List.append_nil, List.map_map]
    by_cases some_named : named = []
    · rw [some_named] at whole ⊢
      rw [← whole]
      exact .blank fun _ mem => absurd mem List.not_mem_nil
    · have glued := itemsText_glue texts some_named
      rw [whole] at glued
      exact .items glued
  · -- the bits without a name are one more item
    obtain ⟨rest, rest_eq⟩ : ∃ rest, rest = f.diff everyClass := ⟨_, rfl⟩
    rw [if_neg none_left, ← rest_eq]
    rw [← rest_eq] at whole
    have more : ∀ p ∈ named ++ [("0x" ++ String.ofList (Text.hexText rest.bits.toNat), rest)],
        ItemText p.1.toList p.2 := by
      intro p mem
      rcases List.mem_append.mp mem with mem | last
      · exact texts p mem
      · rw [List.mem_singleton.mp last]
        exact itemText_hex rest
    have glued := itemsText_glue more (by simp)
    have union : unionAll ((named ++ [("0x" ++ String.ofList (Text.hexText rest.bits.toNat),
        rest)]).map Prod.snd) = f := by
      rw [List.map_append, unionAll_append]
      show (unionAll (named.map Prod.snd)).union (rest.union empty) = f
      rw [union_empty, whole]
    rw [union] at glued
    rw [List.map_append, List.map_map]
    rw [List.map_append] at glued
    exact .items glued

/-- Written filters are read back, whatever bits they have. -/
theorem ofText_toText (f : Filter) : ofText f.toText = .ok f := ofText_eq f.filterText_toText

end Filter

end DirWatch
