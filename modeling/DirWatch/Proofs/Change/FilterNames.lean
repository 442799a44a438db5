import DirWatch.Proofs.Change.FilterTexts

/-!
# Filters and class names

A list of names is read as the union of the classes that the names mean, once blanks, case and
dashes are put aside (`Filter.ofNames_eq_ok_iff`); the first name that means no class is reported as
it was written (`Filter.ofNames_eq_error_iff`). The reader of texts agrees: it reads the listed
spellings of the names with bars between them as the same filter (`Filter.ofText_intercalate`).
-/

namespace DirWatch

namespace Text

/-- Trimming takes off all blanks at both ends, and nothing else. -/
theorem trim_spec (s : List Char) :
    ∃ before after, s = before ++ (trim s ++ after) ∧ Blanks before ∧ Blanks after ∧
      (∀ c ∈ (trim s).head?, isBlank c = false) ∧ ∀ c ∈ (trim s).getLast?, isBlank c = false := by
  have taken (t : List Char) : Blanks (t.takeWhile isBlank) := by
    intro c mem
    exact List.mem_takeWhile_imp mem
  have dropped (t : List Char) : ∀ c ∈ (t.dropWhile isBlank).head?, isBlank c = false := by
    intro c first
    have visible := List.head?_dropWhile_not isBlank t
    rw [Option.mem_def.mp first] at visible
    simpa using visible
  -- what stands behind the blanks in front, read from its end
  obtain ⟨front, front_eq⟩ : ∃ front, front = s.dropWhile isBlank := ⟨_, rfl⟩
  have trimmed : trim s = (front.reverse.dropWhile isBlank).reverse := by
    rw [front_eq]
    rfl
  have whole : front = trim s ++ (front.reverse.takeWhile isBlank).reverse := by
    rw [trimmed, ← List.reverse_append, List.takeWhile_append_dropWhile, List.reverse_reverse]
  refine ⟨s.takeWhile isBlank, (front.reverse.takeWhile isBlank).reverse, ?_, taken s, ?_, ?_, ?_⟩
  · rw [← whole, front_eq, List.takeWhile_append_dropWhile]
  · intro c mem
    exact taken _ c (List.mem_reverse.mp mem)
  · intro c first
    apply dropped s c
    rw [← front_eq, whole]
    exact List.mem_head?_append_of_mem_head? first
  · intro c last
    apply dropped front.reverse c
    rw [trimmed, List.getLast?_reverse] at last
    exact last

end Text

namespace Filter

/-! ## Names of classes -/

/-- Nothing but a dash becomes a dash in upper case. -/
theorem eq_dash_of_toUpper {c : Char} (upper : c.toUpper = '-') : c = '-' := by
  unfold Char.toUpper at upper
  split at upper
  · next lower =>
    have value := congrArg (fun d : Char => d.val.toNat) upper
    simp [UInt32.toNat_add] at value
    simp [UInt32.le_iff_toNat_le] at lower
    omega
  · exact upper

/-- The listed spelling of a name, step by step: blanks, case, dashes. -/
theorem normalName_eq (name : String) :
    normalName name = String.ofList (((Text.trim name.toList).map Char.toUpper).map
      fun c => if c = '-' then '_' else c) := by
  rw [normalName, List.map_map]
  congr 2
  funext c
  show _ = if c.toUpper = '-' then '_' else c.toUpper
  by_cases dash : c = '-'
  · rw [dash]
    rfl
  · rw [if_neg dash, if_neg (fun upper => dash (eq_dash_of_toUpper upper))]

/-- A name that means a class. -/
def Named (name : String) : Prop := ∃ c ∈ classes, normalName name = c.1

/-- The union of the classes that names mean. -/
def meant (names : List String) : Filter :=
  unionAll ((classes.filter fun c => c.1 ∈ names.map normalName).map Prod.snd)

theorem ofName?_class {c : String × Filter} (mem : c ∈ classes) : ofName? c.1 = some c.2 := by
  have listed : ∀ c ∈ classes, ofName? c.1 = some c.2 := by decide
  exact listed c mem

/-- A class has one name only. -/
theorem class_congr {c c' : String × Filter} (mem : c ∈ classes) (mem' : c' ∈ classes)
    (same : c.1 = c'.1) : c.2 = c'.2 := by
  have found := ofName?_class mem
  rw [same, ofName?_class mem'] at found
  exact (Option.some.inj found).symm

theorem ofLooseName?_eq_none_iff {name : String} : ofLooseName? name = none ↔ ¬ Named name := by
  rw [ofLooseName?, ofName?, Option.map_eq_none_iff, List.find?_eq_none, Named]
  simp only [beq_iff_eq, not_exists, not_and]
  exact forall₂_congr fun c _ => not_congr eq_comm

/-! ## Lists of names -/

theorem bit_meant (names : List String) (i : Nat) : (meant names).bit i = true ↔
    ∃ c ∈ classes, c.1 ∈ names.map normalName ∧ c.2.bit i = true := by
  rw [meant, bit_unionAll, List.any_eq_true]
  constructor
  · rintro ⟨f, mem, set⟩
    obtain ⟨c, kept, rfl⟩ := List.mem_map.mp mem
    obtain ⟨listed, among⟩ := List.mem_filter.mp kept
    exact ⟨c, listed, of_decide_eq_true among, set⟩
  · rintro ⟨c, listed, among, set⟩
    exact ⟨c.2, List.mem_map_of_mem (List.mem_filter.mpr ⟨listed, decide_eq_true among⟩), set⟩

/-- Names that all mean a class mean some classes, one by one. -/
theorem exists_classes {names : List String} (all : ∀ name ∈ names, Named name) :
    ∃ cs : List (String × Filter),
      (∀ c ∈ cs, c ∈ classes) ∧ cs.map Prod.fst = names.map normalName := by
  induction names with
  | nil => exact ⟨[], List.forall_mem_nil _, rfl⟩
  | cons name names ih =>
    obtain ⟨⟨c, mem, means⟩, rest⟩ := List.forall_mem_cons.mp all
    obtain ⟨cs, listed, same⟩ := ih rest
    refine ⟨c :: cs, List.forall_mem_cons.mpr ⟨mem, listed⟩, ?_⟩
    rw [List.map_cons, List.map_cons, means, same]

theorem unionAll_eq_meant {names : List String} {cs : List (String × Filter)}
    (listed : ∀ c ∈ cs, c ∈ classes) (same : cs.map Prod.fst = names.map normalName) :
    unionAll (cs.map Prod.snd) = meant names := by
  apply ext_bit
  intro i
  rw [Bool.eq_iff_iff, bit_meant, bit_unionAll, List.any_eq_true, ← same]
  constructor
  · rintro ⟨f, mem, set⟩
    obtain ⟨c, among, rfl⟩ := List.mem_map.mp mem
    exact ⟨c, listed c among, List.mem_map_of_mem among, set⟩
  · rintro ⟨c, mem, among, set⟩
    obtain ⟨c', among', name⟩ := List.mem_map.mp among
    rw [← class_congr (listed c' among') mem name] at set
    exact ⟨c'.2, List.mem_map_of_mem among', set⟩

theorem ofNames_of_classes {names : List String} {cs : List (String × Filter)}
    (listed : ∀ c ∈ cs, c ∈ classes) (same : cs.map Prod.fst = names.map normalName) :
    ofNames names = .ok (unionAll (cs.map Prod.snd)) := by
  induction names generalizing cs with
  | nil =>
    obtain rfl := List.map_eq_nil_iff.mp same
    rfl
  | cons name names ih =>
    cases cs with
    | nil => cases same
    | cons c cs =>
      obtain ⟨mem, rest⟩ := List.forall_mem_cons.mp listed
      obtain ⟨means, same_rest⟩ := List.cons.inj same
      have found : ofLooseName? name = some c.2 := by
        rw [ofLooseName?, ← means]
        exact ofName?_class mem
      rw [ofNames, found, ih rest same_rest]
      rfl

/-- What is read for a name before others, if the name means a class and the others are read. -/
theorem ofNames_cons_eq_ok {name : String} {names : List String} {f : Filter}
    (read : ofNames (name :: names) = .ok f) : Named name ∧ ∃ g, ofNames names = .ok g := by
  rw [ofNames] at read
  cases found : ofLooseName? name with
  | none =>
    rw [found] at read
    cases read
  | some h =>
    have means : Named name := by
      by_contra unnamed
      rw [ofLooseName?_eq_none_iff.mpr unnamed] at found
      cases found
    cases rest : ofNames names with
    | error e =>
      rw [found, rest] at read
      cases read
    | ok g => exact ⟨means, g, rfl⟩

/-- A list of names is read if each of them means a class, and then as the union of these. -/
theorem ofNames_eq_ok_iff {names : List String} {f : Filter} :
    ofNames names = .ok f ↔ (∀ name ∈ names, Named name) ∧ f = meant names := by
  have read_all {names : List String} (all : ∀ name ∈ names, Named name) :
      ofNames names = .ok (meant names) := by
    obtain ⟨cs, listed, same⟩ := exists_classes all
    rw [ofNames_of_classes listed same, unionAll_eq_meant listed same]
  constructor
  · intro read
    have all : ∀ name ∈ names, Named name := by
      clear read_all
      induction names generalizing f with
      | nil => exact List.forall_mem_nil _
      | cons name names ih =>
        obtain ⟨means, g, rest⟩ := ofNames_cons_eq_ok read
        exact List.forall_mem_cons.mpr ⟨means, ih rest⟩
    rw [read_all all] at read
    exact ⟨all, (Except.ok.inj read).symm⟩
  · rintro ⟨all, rfl⟩
    exact read_all all

/-- In front of a name that means no class, names that mean one make no difference. -/
theorem ofNames_of_unnamed {before behind : List String} {bad : String}
    (named : ∀ name ∈ before, Named name) (unnamed : ¬ Named bad) :
    ofNames (before ++ bad :: behind) = .error bad := by
  induction before with
  | nil => rw [List.nil_append, ofNames, ofLooseName?_eq_none_iff.mpr unnamed]
  | cons name before ih =>
    obtain ⟨means, rest⟩ := List.forall_mem_cons.mp named
    rw [List.cons_append, ofNames, ih rest]
    cases found : ofLooseName? name with
    | none => exact absurd means (ofLooseName?_eq_none_iff.mp found)
    | some f => rfl

/-- Where a name means no class, there is a first one. -/
theorem exists_unnamed {names : List String} (some_unnamed : ¬ ∀ name ∈ names, Named name) :
    ∃ before bad behind, names = before ++ bad :: behind ∧ (∀ name ∈ before, Named name) ∧
      ¬ Named bad := by
  induction names with
  | nil => exact absurd (List.forall_mem_nil _) some_unnamed
  | cons name names ih =>
    by_cases means : Named name
    · obtain ⟨before, bad, behind, rfl, named, unnamed⟩ :=
        ih (fun all => some_unnamed (List.forall_mem_cons.mpr ⟨means, all⟩))
      exact ⟨name :: before, bad, behind, rfl, List.forall_mem_cons.mpr ⟨means, named⟩, unnamed⟩
    · exact ⟨[], name, names, rfl, List.forall_mem_nil _, means⟩

/-- The first name that means no class is reported. -/
theorem ofNames_eq_error_iff {names : List String} {bad : String} :
    ofNames names = .error bad ↔ ∃ before behind, names = before ++ bad :: behind ∧
      (∀ name ∈ before, Named name) ∧ ¬ Named bad := by
  constructor
  · intro failed
    have some_unnamed : ¬ ∀ name ∈ names, Named name := by
      intro all
      rw [ofNames_eq_ok_iff.mpr ⟨all, rfl⟩] at failed
      cases failed
    obtain ⟨before, first, behind, rfl, named, unnamed⟩ := exists_unnamed some_unnamed
    rw [ofNames_of_unnamed named unnamed] at failed
    obtain rfl := Except.error.inj failed
    exact ⟨before, behind, rfl, named, unnamed⟩
  · rintro ⟨before, behind, rfl, named, unnamed⟩
    exact ofNames_of_unnamed named unnamed

/-! ## The union of classes -/

theorem meant_append (names names' : List String) :
    meant (names ++ names') = (meant names).union (meant names') := by
  apply ext_bit
  intro i
  rw [Bool.eq_iff_iff, bit_union, Bool.or_eq_true, bit_meant, bit_meant, bit_meant, List.map_append]
  simp only [List.mem_append, or_and_right, and_or_left, exists_or]

/-- Order, repetition and spelling of the names do not matter. -/
theorem meant_congr {names names' : List String}
    (same : ∀ s, s ∈ names.map normalName ↔ s ∈ names'.map normalName) :
    meant names = meant names' := by
  rw [meant, meant]
  simp only [same]

/-- Names mean no bit without a name. -/
theorem everyClass_contains_meant (names : List String) :
    everyClass.contains (meant names) = true := by
  rw [contains, decide_eq_true_iff]
  apply ext_bit
  intro i
  have named : (meant names).bit i = true → everyClass.bit i = true := by
    intro set
    obtain ⟨c, mem, -, at_class⟩ := (bit_meant names i).mp set
    rw [everyClass_eq, bit_unionAll, List.any_eq_true]
    exact ⟨c.2, List.mem_map_of_mem mem, at_class⟩
  rw [bit_inter]
  cases set : (meant names).bit i with
  | false => exact Bool.and_false _
  | true => rw [named set, Bool.and_true]

/-! ## The two readers -/

/-- The listed spellings of names, with bars between them, are read as what the names mean. -/
theorem ofText_intercalate {names : List String} (all : ∀ name ∈ names, Named name) :
    ofText (" | ".intercalate (names.map normalName)) = .ok (meant names) := by
  obtain ⟨cs, listed, same⟩ := exists_classes all
  have spelled : (" | ".intercalate (names.map normalName)).toList =
      Text.glue " | ".toList (cs.map fun c => c.1.toList) := by
    rw [← same, String.toList_intercalate, Text.glue_eq_intercalate, List.map_map]
    rfl
  rw [← unionAll_eq_meant listed same]
  apply ofText_eq
  rw [spelled]
  by_cases some_class : cs = []
  · rw [some_class]
    exact .blank (List.forall_mem_nil _)
  · exact .items (itemsText_glue (fun c mem => .named (listed c mem)) some_class)

/-- What the reader of names does, and how the reader of texts agrees with it. -/
structure Readers : Prop where
  /-- Names are compared without blanks at their ends, in upper case and with dashes replaced. -/
  normal (name : String) : ∃ before word after, name.toList = before ++ (word ++ after) ∧
    Text.Blanks before ∧ Text.Blanks after ∧ (∀ c ∈ word.head?, Text.isBlank c = false) ∧
    (∀ c ∈ word.getLast?, Text.isBlank c = false) ∧
    normalName name =
      String.ofList ((word.map Char.toUpper).map fun c => if c = '-' then '_' else c)
  accepted (names : List String) : (∃ f, ofNames names = .ok f) ↔
    ∀ name ∈ names, ∃ c ∈ classes, normalName name = c.1
  /-- The filter has the bits of the classes that are named, and no others. -/
  united (names : List String) (f : Filter) (read : ofNames names = .ok f) :
    f = unionAll ((classes.filter fun c => c.1 ∈ names.map normalName).map Prod.snd) ∧
      everyClass.contains f = true
  alike (names names' : List String)
    (same : ∀ s, s ∈ names.map normalName ↔ s ∈ names'.map normalName) (f : Filter)
    (read : ofNames names = .ok f) : ofNames names' = .ok f
  joined (names names' : List String) (f g : Filter) (read : ofNames names = .ok f)
    (read' : ofNames names' = .ok g) : ofNames (names ++ names') = .ok (f.union g)
  /-- The first name that means no class is reported as it was written. -/
  failing (names : List String) (bad : String) : ofNames names = .error bad ↔
    ∃ before behind, names = before ++ bad :: behind ∧
      (∀ name ∈ before, ∃ c ∈ classes, normalName name = c.1) ∧
      ¬ ∃ c ∈ classes, normalName bad = c.1
  /-- The reader of texts takes the listed spellings for the same filter, and blank text for that of
  no names at all. -/
  text (names : List String) (f : Filter) (read : ofNames names = .ok f) :
    ofText (" | ".intercalate (names.map normalName)) = .ok f ∧
      (names = [] → ∀ text, Text.Blanks text.toList → ofText text = .ok f)
  written (f : Filter) : ofText f.toText = .ok f

theorem readers_agree : Readers where
  normal name := by
    obtain ⟨before, after, whole, blanks, blanks', first, last⟩ := Text.trim_spec name.toList
    exact ⟨before, _, after, whole, blanks, blanks', first, last, normalName_eq name⟩
  accepted names := by
    constructor
    · rintro ⟨f, read⟩
      exact (ofNames_eq_ok_iff.mp read).1
    · intro all
      exact ⟨meant names, ofNames_eq_ok_iff.mpr ⟨all, rfl⟩⟩
  united names f read := by
    obtain ⟨-, rfl⟩ := ofNames_eq_ok_iff.mp read
    exact ⟨rfl, everyClass_contains_meant names⟩
  alike names names' same f read := by
    obtain ⟨all, rfl⟩ := ofNames_eq_ok_iff.mp read
    refine ofNames_eq_ok_iff.mpr ⟨?_, meant_congr same⟩
    intro name' mem
    obtain ⟨name, among, spelled⟩ :=
      List.mem_map.mp ((same (normalName name')).mpr (List.mem_map_of_mem mem))
    obtain ⟨c, listed, means⟩ := all name among
    exact ⟨c, listed, spelled.symm.trans means⟩
  joined names names' f g read read' := by
    obtain ⟨all, rfl⟩ := ofNames_eq_ok_iff.mp read
    obtain ⟨all', rfl⟩ := ofNames_eq_ok_iff.mp read'
    exact ofNames_eq_ok_iff.mpr
      ⟨List.forall_mem_append.mpr ⟨all, all'⟩, (meant_append names names').symm⟩
  failing _ _ := ofNames_eq_error_iff
  text names f read := by
    obtain ⟨all, rfl⟩ := ofNames_eq_ok_iff.mp read
    refine ⟨ofText_intercalate all, ?_⟩
    rintro rfl text blanks
    have nothing : meant [] = empty := by decide
    rw [nothing]
    exact ofText_eq (.blank blanks)
  written f := ofText_toText f

/-- Three names in loose spelling, twice the same class, in both readers. -/
theorem readers_agree_sizes :
    ofNames [" size", "last-write\n", "Size"] = .ok (size.union lastWrite) ∧
      ofText "SIZE | LAST_WRITE | SIZE" = .ok (size.union lastWrite) := by
  have read : ofNames [" size", "last-write\n", "Size"] = .ok (size.union lastWrite) := by decide
  exact ⟨read, (readers_agree.text _ _ read).1⟩

end Filter

end DirWatch
