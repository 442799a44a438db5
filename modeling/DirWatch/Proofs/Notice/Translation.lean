import DirWatch.Notice.Line
import DirWatch.Proofs.Change.FilterTexts
import DirWatch.Proofs.Path.Components
import Mathlib.Data.List.Basic

/-!
# From notices to changes

Which notices a watch makes changes of, and which changes. A filter only chooses among the changes
that the mask of all classes lets through (`Notice.change?_eq`), so masks can be taken apart
(`Notice.change?_union`), and a sequence of notices makes a part of the changes that it makes under
all classes, in the same order (`Notice.changesOf_eq`). What a change says comes from the kind of
the notice and the components of its first path (`Notice.change?_eq_some_iff`).
-/

namespace DirWatch

/-! ## Masks -/

namespace Filter

variable {f g c : Filter}

theorem eq_empty_iff : f = empty ↔ ∀ i, f.bit i = false := by
  constructor
  · rintro rfl i
    exact bit_empty i
  · intro none_set
    apply ext_bit
    intro i
    rw [none_set, bit_empty]

theorem intersects_iff : f.intersects g = true ↔ ∃ i, f.bit i = true ∧ g.bit i = true := by
  have some_bit : f.intersects g = true ↔ f.inter g ≠ empty := by
    rw [intersects, bne_iff_ne]
    constructor
    · rintro bits same
      exact bits (congrArg Filter.bits same)
    · rintro differs bits
      exact differs (congrArg Filter.mk bits)
  rw [some_bit, ne_eq, eq_empty_iff, not_forall]
  simp only [Bool.not_eq_false, bit_inter, Bool.and_eq_true]

theorem intersects_union (f g c : Filter) :
    (f.union g).intersects c = (f.intersects c || g.intersects c) := by
  rw [Bool.eq_iff_iff, Bool.or_eq_true, intersects_iff, intersects_iff, intersects_iff]
  simp only [bit_union, Bool.or_eq_true, or_and_right, exists_or]

/-- The classes that notices can have: all but the times of creation. -/
def noticed : Filter := everyClass.diff creation

/-- Bits outside of the classes that notices can have make no difference to them. -/
theorem intersects_inter_noticed (within : c.inter noticed = c) :
    (f.inter noticed).intersects c = f.intersects c := by
  have in_class (i : Nat) : c.bit i = true → noticed.bit i = true := by
    intro here
    rw [← within, bit_inter, Bool.and_eq_true] at here
    exact here.2
  rw [Bool.eq_iff_iff, intersects_iff, intersects_iff]
  constructor
  · rintro ⟨i, kept, there⟩
    rw [bit_inter, Bool.and_eq_true] at kept
    exact ⟨i, kept.1, there⟩
  · rintro ⟨i, here, there⟩
    refine ⟨i, ?_, there⟩
    rw [bit_inter, here, in_class i there]
    rfl

end Filter

/-! ## Kinds and their classes -/

namespace NoticeKind

/-- The classes of a kind, if it has any. -/
def classes? (k : NoticeKind) : Option Filter := (k.classify true).map (·.2)

/-- Which way an open rename goes does not matter for the classes. -/
theorem classes?_eq (present : Bool) (k : NoticeKind) :
    (k.classify present).map (·.2) = k.classes? := by
  unfold classes? classify
  split <;> rfl

theorem classes?_of_classify {present : Bool} {k : NoticeKind} {action : Action} {classes : Filter}
    (h : k.classify present = some (action, classes)) : k.classes? = some classes := by
  rw [← classes?_eq present, h]
  rfl

/-- Three kinds have no class: those without a name of their own, and both sides of a rename. -/
theorem classes?_eq_none_iff {k : NoticeKind} :
    k.classes? = none ↔ k = .any ∨ k = .other ∨ k = .modify (.name .both) := by
  have listed : ∀ k ∈ all,
      k.classes? = none ↔ k = .any ∨ k = .other ∨ k = .modify (.name .both) := by
    decide
  exact listed k (mem_all k)

/-- The documented classes, and the action that a change of the kind shows. -/
inductive Documented : NoticeKind → Action → Filter → Prop
  | createFile : Documented (.create .file) .added .fileName
  | createDirectory : Documented (.create .directory) .added .dirName
  | removeFile : Documented (.remove .file) .removed .fileName
  | removeDirectory : Documented (.remove .directory) .removed .dirName
  | oldName : Documented (.modify (.name .oldName)) .renamedFrom .names
  | newName : Documented (.modify (.name .newName)) .renamedTo .names
  | size : Documented (.modify (.data .size)) .modified .size
  | content : Documented (.modify (.data .content)) .modified .lastWrite
  | writeTime : Documented (.modify (.metadata .writeTime)) .modified .lastWrite
  | accessTime : Documented (.modify (.metadata .accessTime)) .modified .lastAccess
  | permissions : Documented (.modify (.metadata .permissions)) .modified .security
  | ownership : Documented (.modify (.metadata .ownership)) .modified .security
  | attributes {m : MetadataChange}
    (others : m ∉ [.writeTime, .accessTime, .permissions, .ownership]) :
    Documented (.modify (.metadata m)) .modified .attributes
  | access (a : AccessKind) : Documented (.access a) .modified .lastAccess

theorem classify_of_documented {k : NoticeKind} {action : Action} {c : Filter}
    (h : Documented k action c) (present : Bool) : k.classify present = some (action, c) := by
  cases h with
  | @attributes m others =>
    cases m with
    | any | extended | other => rfl
    | writeTime | accessTime | permissions | ownership => exact absurd (by decide) others
  | _ => rfl

/-- Kinds that leave open what they are about, each with two kinds that it may stand for. -/
def vague : List (NoticeKind × NoticeKind × NoticeKind) :=
  [(.create .any, .create .file, .create .directory),
    (.create .other, .create .file, .create .directory),
    (.remove .any, .remove .file, .remove .directory),
    (.remove .other, .remove .file, .remove .directory),
    (.modify (.data .any), .modify (.data .size), .modify (.data .content)),
    (.modify (.data .other), .modify (.data .size), .modify (.data .content)),
    (.modify .any, .modify (.data .any), .modify (.metadata .any)),
    (.modify .other, .modify (.data .any), .modify (.metadata .any))]

/-- A vague kind has the classes of all that it may stand for. -/
theorem classes?_of_vague {k k' k'' : NoticeKind} (h : (k, k', k'') ∈ vague) :
    ∃ c c', k'.classes? = some c ∧ k''.classes? = some c' ∧ k.classes? = some (c.union c') := by
  simp only [vague, List.mem_cons, List.not_mem_nil, or_false, Prod.mk.injEq] at h
  rcases h with ⟨rfl, rfl, rfl⟩ | ⟨rfl, rfl, rfl⟩ | ⟨rfl, rfl, rfl⟩ | ⟨rfl, rfl, rfl⟩ |
    ⟨rfl, rfl, rfl⟩ | ⟨rfl, rfl, rfl⟩ | ⟨rfl, rfl, rfl⟩ | ⟨rfl, rfl, rfl⟩
  all_goals exact ⟨_, _, rfl, rfl, rfl⟩

/-- The classes of a kind have names, and are not about creation. -/
theorem classes_noticed {k : NoticeKind} {c : Filter} (h : k.classes? = some c) :
    c.inter .noticed = c ∧ Filter.everyClass.intersects c = true := by
  have listed : ∀ k ∈ all, k.classes?.all (fun c =>
      c.inter .noticed = c ∧ Filter.everyClass.intersects c = true) = true := by decide
  have here := listed k (mem_all k)
  rw [h] at here
  simpa using here

end NoticeKind

/-! ## One notice -/

/-- Tells whether a filter lets notices of a kind through. -/
def Filter.admits (f : Filter) (k : NoticeKind) : Bool := k.classes?.any f.intersects

theorem Filter.admits_union (f g : Filter) (k : NoticeKind) :
    (f.union g).admits k = (f.admits k || g.admits k) := by
  rw [admits, admits, admits]
  cases k.classes? with
  | none => rfl
  | some c => exact intersects_union f g c

/-- Creation and bits without a name make no difference. -/
theorem Filter.admits_congr {f g : Filter} (same : f.inter noticed = g.inter noticed)
    (k : NoticeKind) : f.admits k = g.admits k := by
  rw [admits, admits]
  cases classes : k.classes? with
  | none => rfl
  | some c =>
    have within := (NoticeKind.classes_noticed classes).1
    show f.intersects c = g.intersects c
    rw [← intersects_inter_noticed within, same, intersects_inter_noticed within]

namespace Notice

open RawPath

variable {present : RawPath → Bool} {root : RawPath} {f g : Filter} {n : Notice} {c : Change}

/-- A filter chooses among the changes that all classes make. -/
theorem change?_eq :
    n.change? present root f =
      if f.admits n.kind then n.change? present root .everyClass else none := by
  cases classified : n.kind.classify (n.paths.head?.any present) with
  | none =>
    simp only [change?, classified, ite_self]
  | some said =>
    obtain ⟨action, classes⟩ := said
    have own := NoticeKind.classes?_of_classify classified
    have every := (NoticeKind.classes_noticed own).2
    have admits : f.admits n.kind = f.intersects classes := by
      rw [Filter.admits, own]
      rfl
    simp only [change?, classified, every, admits, if_true]

/-- Under the union of two filters a notice makes the change that it makes under either. -/
theorem change?_union :
    n.change? present root (f.union g) =
      (n.change? present root f).or (n.change? present root g) := by
  rw [change?_eq, change?_eq (f := f), change?_eq (f := g), Filter.admits_union]
  cases f.admits n.kind with
  | true =>
    cases n.change? present root .everyClass with
    | none => exact (ite_self none).symm
    | some c => rfl
  | false => rfl

theorem change?_congr (same : f.inter .noticed = g.inter .noticed) :
    n.change? present root f = n.change? present root g := by
  rw [change?_eq, change?_eq (f := g), Filter.admits_congr same]

/-- What one notice makes, another one of the same kind and with the same components makes up to the
action. -/
theorem exists_change?_congr (present' : RawPath → Bool) {n' : Notice} {path path' : RawPath}
    (kind : n.kind = n'.kind) (first : n.paths.head? = some path)
    (first' : n'.paths.head? = some path') (same : components path = components path')
    (here : n.change? present root f = some c) :
    ∃ c', n'.change? present' root f = some c' ∧ c'.path = c.path := by
  obtain ⟨_, classes, below, is_first, classified, admitted, some_below, whole, named⟩ :=
    change?_eq_some_iff.mp here
  obtain rfl := Option.some.inj (is_first.symm.trans first)
  -- what exists may differ between the two, so the classes carry over and the action does not
  have own := NoticeKind.classes?_of_classify classified
  rw [kind, ← NoticeKind.classes?_eq (present' path')] at own
  obtain ⟨⟨action, _⟩, classified', rfl⟩ := Option.map_eq_some_iff.mp own
  refine ⟨⟨action, c.path⟩, change?_eq_some_iff.mpr ?_, rfl⟩
  exact ⟨path', _, below, first', classified', admitted, some_below, same ▸ whole, named⟩

/-- Only the components of the first path matter for the name of a change. -/
theorem path_of_change?_congr {present' : RawPath → Bool} {n' : Notice} {path path' : RawPath}
    (kind : n.kind = n'.kind) (first : n.paths.head? = some path)
    (first' : n'.paths.head? = some path') (same : components path = components path') :
    (n.change? present root f).map Change.path = (n'.change? present' root f).map Change.path := by
  cases here : n.change? present root f with
  | some c =>
    obtain ⟨c', there, named⟩ := exists_change?_congr present' kind first first' same here
    rw [there, Option.map_some, Option.map_some, named]
  | none =>
    cases there : n'.change? present' root f with
    | none => rfl
    | some c' =>
      obtain ⟨c, other, -⟩ := exists_change?_congr present kind.symm first' first same.symm there
      rw [other] at here
      cases here

/-! ## Sequences of notices -/

/-- The changes of notices in their order, each with what exists when it is told. -/
def changesOf (root : RawPath) (f : Filter) (told : List ((RawPath → Bool) × Notice)) :
    List Change :=
  told.filterMap fun t => t.2.change? t.1 root f

/-- A filter chooses notices, and their changes are those that all classes make. -/
theorem changesOf_eq (told : List ((RawPath → Bool) × Notice)) :
    changesOf root f told =
      changesOf root .everyClass (told.filter fun t => f.admits t.2.kind) := by
  rw [changesOf, changesOf, List.filterMap_filter]
  apply List.filterMap_congr
  intro t _
  exact change?_eq

theorem changesOf_sublist (told : List ((RawPath → Bool) × Notice)) :
    (changesOf root f told).Sublist (changesOf root .everyClass told) := by
  rw [changesOf_eq]
  exact List.filter_sublist.filterMap _

/-! ## All together -/

/-- What becomes of notices under a watch of `root`. -/
structure Translation (root : RawPath) : Prop where
  /-- Kinds have the documented classes. -/
  documented (k : NoticeKind) (action : Action) (c : Filter) (h : k.Documented action c)
    (present : Bool) : k.classify present = some (action, c)
  vague (k k' k'' : NoticeKind) (h : (k, k', k'') ∈ NoticeKind.vague) :
    ∃ c c', k'.classes? = some c ∧ k''.classes? = some c' ∧ k.classes? = some (c.union c')
  classless (k : NoticeKind) : k.classes? = none ↔ k = .any ∨ k = .other ∨ k = .modify (.name .both)
  /-- There is a change if the filter asks for a class of the kind and the first path lies below the
  root. -/
  made (present : RawPath → Bool) (f : Filter) (n : Notice) :
    (∃ c, n.change? present root f = some c) ↔
      ∃ path classes below, n.paths.head? = some path ∧ n.kind.classes? = some classes ∧
        f.intersects classes = true ∧ below ≠ [] ∧ components path = components root ++ below
  /-- The change has the action of the kind, and its name lists the components below the root. -/
  tells (present : RawPath → Bool) (f : Filter) (n : Notice) (c : Change)
    (h : n.change? present root f = some c) (path : RawPath) (below : List Component)
    (first : n.paths.head? = some path) (whole : components path = components root ++ below) :
    (∃ classes, n.kind.classify (present path) = some (c.action, classes)) ∧
      c.path = nameOf below ∧ Text.pieces '/' c.path.toList = below.map Component.text ∧
      Tidy c.path
  /-- How the path is spelled does not matter for the name. -/
  respelled (present : RawPath → Bool) (f : Filter) (kind : NoticeKind) (path path' : RawPath)
    (more more' : List RawPath) (rescan rescan' : Bool) (same : SameSpelled path path') :
    (change? present root f ⟨kind, path :: more, rescan⟩).map Change.path =
      (change? present root f ⟨kind, path' :: more', rescan'⟩).map Change.path
  /-- Nothing comes of a notice without paths, of one about the root, and of one about a path that
  goes on with the text of the root in the same component. -/
  nothing (present : RawPath → Bool) (f : Filter) (n : Notice)
    (outside : n.paths = [] ∨ (∃ path, n.paths.head? = some path ∧ components path = components root) ∨
      root ≠ [slash] ∧ ∃ b rest, b ≠ slash ∧ n.paths.head? = some (root ++ b :: rest)) :
    n.change? present root f = none
  /-- Of two masks together, either one may let the notice through. -/
  union (present : RawPath → Bool) (f g : Filter) (n : Notice) :
    n.change? present root (f.union g) =
      (n.change? present root f).or (n.change? present root g)
  /-- Creation and bits without a name do not matter. -/
  unnoticed (present : RawPath → Bool) (f g : Filter) (n : Notice)
    (same : f.inter .noticed = g.inter .noticed) :
    n.change? present root f = n.change? present root g
  /-- The changes under a filter are some of those under all classes, in the same order. -/
  sequence (f : Filter) (told : List ((RawPath → Bool) × Notice)) :
    changesOf root f told =
        changesOf root .everyClass (told.filter fun t => f.admits t.2.kind) ∧
      (changesOf root f told).Sublist (changesOf root .everyClass told)

/-- Without a name below the root there is no change. -/
theorem change?_eq_none (outside : ∀ path, n.paths.head? = some path → relativeName? root path = none) :
    n.change? present root f = none := by
  rw [Option.eq_none_iff_forall_ne_some]
  intro c made
  obtain ⟨path, _, below, first, -, -, some_below, whole, -⟩ := change?_eq_some_iff.mp made
  have named := relativeName?_eq_some_iff.mpr ⟨below, some_below, whole, rfl⟩
  rw [outside path first] at named
  cases named

theorem exists_change?_iff :
    (∃ c, n.change? present root f = some c) ↔
      ∃ path classes below, n.paths.head? = some path ∧ n.kind.classes? = some classes ∧
        f.intersects classes = true ∧ below ≠ [] ∧ components path = components root ++ below := by
  constructor
  · rintro ⟨c, made⟩
    obtain ⟨path, classes, below, first, classified, admitted, some_below, whole, -⟩ :=
      change?_eq_some_iff.mp made
    have own := NoticeKind.classes?_of_classify classified
    exact ⟨path, classes, below, first, own, admitted, some_below, whole⟩
  · rintro ⟨path, classes, below, first, own, admitted, some_below, whole⟩
    rw [← NoticeKind.classes?_eq (present path)] at own
    obtain ⟨⟨action, _⟩, classified, rfl⟩ := Option.map_eq_some_iff.mp own
    refine ⟨⟨action, nameOf below⟩, change?_eq_some_iff.mpr ?_⟩
    exact ⟨path, _, below, first, classified, admitted, some_below, whole, rfl⟩

theorem translation (root : RawPath) (canonical : Canonical root) : Translation root where
  documented _ _ _ h present := NoticeKind.classify_of_documented h present
  vague _ _ _ h := NoticeKind.classes?_of_vague h
  classless _ := NoticeKind.classes?_eq_none_iff
  made _ _ _ := exists_change?_iff
  tells present f n c h path below first whole := by
    obtain ⟨_, classes, _, is_first, classified, -, some_below, whole', named⟩ :=
      change?_eq_some_iff.mp h
    obtain rfl := Option.some.inj (is_first.symm.trans first)
    obtain rfl := List.append_cancel_left (whole'.symm.trans whole)
    have inner := inner_of_canonical canonical whole
    rw [named]
    exact ⟨⟨classes, classified⟩, rfl, pieces_nameOf some_below inner, tidy_nameOf some_below inner⟩
  respelled _ _ _ _ _ _ _ _ _ same :=
    path_of_change?_congr rfl rfl rfl (components_of_sameSpelled same)
  nothing present f n outside := by
    apply change?_eq_none
    intro path first
    rcases outside with none_at_all | ⟨path', first', same⟩ | ⟨not_slash, b, rest, other, sibling⟩
    · rw [none_at_all] at first
      cases first
    · obtain rfl := Option.some.inj (first.symm.trans first')
      exact relativeName?_root same
    · obtain rfl := Option.some.inj (first.symm.trans sibling)
      exact relativeName?_sibling canonical not_slash other rest
  union _ _ _ _ := change?_union
  unnoticed _ _ _ _ same := change?_congr same
  sequence _ told := ⟨changesOf_eq told, changesOf_sublist told⟩

/-- Under a watch of `/w`, a new file has its name however the path to it is spelled, and nothing is
said of the directory beside the root. -/
theorem translation_ofW :
    Canonical (ofString "/w") ∧
      (∀ path, SameSpelled (ofString "/w/a") path → ∀ present,
        (change? present (ofString "/w") .fileName ⟨.create .file, [path], false⟩).map Change.path =
          some "a") ∧
      ∀ present, change? present (ofString "/w") .everyClass
        ⟨.create .file, [ofString "/w2/x"], false⟩ = none := by
  -- the path of the one directory that this tree has
  have found : FileTree.canonical ⟨[([ofString "w"], .directory)], []⟩ (ofString "/./w/") =
      .ok (ofString "/w") := by decide +kernel
  have canonical : Canonical (ofString "/w") :=
    FileTree.canonical_of_eq_ok (List.forall_mem_nil _) found
  have laws := translation (ofString "/w") canonical
  refine ⟨canonical, ?_, ?_⟩
  · intro path same present
    rw [← laws.respelled present .fileName (.create .file) _ path [] [] false false same]
    with_unfolding_all rfl
  · intro present
    apply laws.nothing
    exact .inr (.inr ⟨by decide, 0x32, [0x2F, 0x78], by decide, by decide⟩)

end Notice

end DirWatch
