import DirWatch.Path.FileTree
import DirWatch.Proofs.Notice.Names
import DirWatch.Proofs.Text.Lossy
import DirWatch.Proofs.Text.Pieces
import Mathlib.Data.List.Basic
import Mathlib.Data.List.Infix
import Mathlib.Logic.Relation

/-!
# Components and names

How a path is spelled does not matter beyond its components: repeated slashes, single dots behind a
slash and a slash at the end change nothing (`components_of_sameSpelled`). The canonical root of a
watch has one component for each directory on the way (`components_pathOf`). The name of a path
below it can be cut into the components behind the root's again (`pieces_nameOf`): none is empty and
none is a single dot.
-/

namespace DirWatch

namespace RawPath

/-! ## Components in two parts -/

/-- The component that a path begins with, apart from its parts: the root, or a dot. -/
def lead (p : RawPath) : List Component :=
  if isAbsolute p then [.root]
  else if (Text.pieces slash p).head? = some dot then [.here]
  else []

/-- The components that the parts of a path stand for. -/
def named (p : RawPath) : List Component := (Text.pieces slash p).filterMap componentOfPart?

theorem components_eq (p : RawPath) : components p = lead p ++ named p := by
  simp only [components, lead, named]
  split
  · rfl
  · split
    · rfl
    · rfl

theorem named_append_slash (u v : RawPath) : named (u ++ slash :: v) = named u ++ named v := by
  rw [named, Text.pieces_append_sep, List.filterMap_append]
  rfl

theorem named_nil : named [] = [] := rfl

theorem lead_append_slash {u : RawPath} (filled : u ≠ []) (v : RawPath) :
    lead (u ++ slash :: v) = lead u := by
  have first_part : (Text.pieces slash (u ++ slash :: v)).head? = (Text.pieces slash u).head? := by
    rw [Text.pieces_append_sep, List.head?_append_of_ne_nil _ (Text.pieces_ne_nil slash u)]
  have first_byte : (u ++ slash :: v).head? = u.head? := List.head?_append_of_ne_nil _ filled
  simp only [lead, isAbsolute, first_part, first_byte]
  rfl

/-- Behind a slash only the components of what follows matter. -/
theorem components_append_slash_congr (u : RawPath) {v w : RawPath} (same : named v = named w) :
    components (u ++ slash :: v) = components (u ++ slash :: w) := by
  rw [components_eq, components_eq, named_append_slash, named_append_slash, same]
  cases u with
  | nil => rfl
  | cons b u =>
    rw [lead_append_slash (List.cons_ne_nil b u), lead_append_slash (List.cons_ne_nil b u)]

/-! ## Other spellings -/

/-- One step from a spelling of a path to a shorter one. -/
inductive Respelled : RawPath → RawPath → Prop
  /-- A slash behind a slash is left out. -/
  | slash (u v : RawPath) : Respelled (u ++ slash :: slash :: v) (u ++ slash :: v)
  /-- A dot between slashes is left out. -/
  | dot (u v : RawPath) : Respelled (u ++ slash :: (dot ++ slash :: v)) (u ++ slash :: v)
  /-- A dot at the end is left out. -/
  | lastDot (u : RawPath) : Respelled (u ++ slash :: dot) (u ++ [slash])
  /-- A slash at the end is left out, unless it is all there is. -/
  | lastSlash (u : RawPath) (filled : u ≠ []) : Respelled (u ++ [slash]) u

theorem Respelled.components_eq {p q : RawPath} (h : Respelled p q) :
    components p = components q := by
  cases h with
  | slash u v => exact components_append_slash_congr u (named_append_slash [] v)
  | dot u v => exact components_append_slash_congr u (named_append_slash _ v)
  | lastDot u => exact components_append_slash_congr u rfl
  | lastSlash u filled =>
    rw [RawPath.components_eq, lead_append_slash filled, named_append_slash, named_nil,
      List.append_nil, ← RawPath.components_eq]

/-- Two spellings of one path, any number of steps apart. -/
def SameSpelled : RawPath → RawPath → Prop := Relation.EqvGen Respelled

theorem components_of_sameSpelled {p q : RawPath} (h : SameSpelled p q) :
    components p = components q := by
  induction h with
  | rel p q step => exact step.components_eq
  | refl p => rfl
  | symm p q _ ih => exact ih.symm
  | trans p q r _ _ ih ih' => exact ih.trans ih'

/-! ## Canonical paths -/

/-- A part of a path that names an entry of a directory. -/
structure IsName (part : List UInt8) : Prop where
  filled : part ≠ []
  not_dot : part ≠ dot
  not_dotDot : part ≠ dotDot
  whole : slash ∉ part

theorem IsName.component {part : List UInt8} (h : IsName part) :
    componentOfPart? part = some (.name part) := by
  rw [componentOfPart?, if_neg (not_or.mpr ⟨h.filled, h.not_dot⟩), if_neg h.not_dotDot]

theorem named_of_isName {part : List UInt8} (h : IsName part) : named part = [.name part] := by
  rw [named, Text.pieces_of_whole h.whole, List.filterMap_cons, h.component]
  rfl

theorem named_flatMap {place : Place} (names : ∀ part ∈ place, IsName part) (u : RawPath) :
    named (u ++ place.flatMap (slash :: ·)) = named u ++ place.map .name := by
  induction place generalizing u with
  | nil => simp
  | cons part place ih =>
    obtain ⟨first, rest⟩ := List.forall_mem_cons.mp names
    rw [List.flatMap_cons, ← List.append_assoc, ih rest, named_append_slash, named_of_isName first,
      List.map_cons, List.append_assoc]
    rfl

/-- The absolute path of a place has one component for each directory on the way. -/
theorem components_pathOf {place : Place} (names : ∀ part ∈ place, IsName part) :
    components (FileTree.pathOf place) = .root :: place.map .name := by
  cases place with
  | nil => rfl
  | cons part place =>
    have parts := named_flatMap names []
    rw [List.nil_append] at parts
    show components ((part :: place).flatMap (slash :: ·)) = _
    rw [components_eq, parts]
    rfl

/-- The absolute path of a place: it has no dots, no repeated slashes and no slash at the end. -/
def Canonical (root : RawPath) : Prop :=
  ∃ place : Place, (∀ part ∈ place, IsName part) ∧ root = FileTree.pathOf place

theorem canonical_of_isName {part : List UInt8} (h : IsName part) : Canonical (slash :: part) := by
  refine ⟨[part], ?_, (List.append_nil _).symm⟩
  intro other mem
  rw [List.mem_singleton.mp mem]
  exact h

end RawPath

namespace FileTree

open RawPath

theorem partsOf_spec {p : RawPath} {part : List UInt8} (mem : part ∈ partsOf p) :
    part ≠ [] ∧ slash ∉ part := by
  have cut : part ∈ (Text.pieces slash p).filter (fun part => !part.isEmpty) →
      part ≠ [] ∧ slash ∉ part := by
    intro kept
    obtain ⟨piece, filled⟩ := List.mem_filter.mp kept
    exact ⟨by simpa using filled, Text.not_mem_of_mem_pieces piece⟩
  simp only [partsOf] at mem
  split at mem
  · rcases List.mem_append.mp mem with kept | last
    · exact cut kept
    · rw [List.mem_singleton.mp last]
      exact ⟨by decide, by decide⟩
  · exact cut mem

theorem names_snoc {place : Place} {part : List UInt8} (names : ∀ part ∈ place, IsName part)
    (last : IsName part) : ∀ q ∈ place ++ [part], IsName q := by
  intro q mem
  rcases List.mem_append.mp mem with before | here
  · exact names q before
  · rw [List.mem_singleton.mp here]
    exact last

/-- A walk from a place leads to a place, if the walks behind links do. -/
theorem walkTo_names {tree : FileTree} {purpose : Purpose}
    {follow : Place → List (List UInt8) → Except IoError Place} {place found : Place}
    {parts : List (List UInt8)}
    (follows : ∀ {place parts found}, (∀ part ∈ place, IsName part) →
      (∀ part ∈ parts, part ≠ [] ∧ slash ∉ part) → follow place parts = .ok found →
        ∀ part ∈ found, IsName part)
    (start : ∀ part ∈ place, IsName part) (steps : ∀ part ∈ parts, part ≠ [] ∧ slash ∉ part)
    (h : tree.walkTo purpose follow place parts = .ok found) : ∀ part ∈ found, IsName part := by
  fun_induction tree.walkTo purpose follow place parts with
  | case1 =>
    cases h
    exact start
  | case2 | case5 | case7 => cases h
  | case3 place rest _ ih => exact ih start (List.forall_mem_cons.mp steps).2 h
  | case4 place rest _ _ ih =>
    exact ih (fun part mem => start part (List.mem_of_mem_dropLast mem))
      (List.forall_mem_cons.mp steps).2 h
  | case6 place part rest _ not_dot not_dotDot =>
    cases h
    obtain ⟨⟨filled, whole⟩, -⟩ := List.forall_mem_cons.mp steps
    exact names_snoc start ⟨filled, not_dot, not_dotDot, whole⟩
  | case8 place part rest _ _ _ _ target =>
    refine follows ?_ ?_ h
    · split
      · exact List.forall_mem_nil _
      · exact start
    · exact List.forall_mem_append.mpr
        ⟨fun _ mem => partsOf_spec mem, (List.forall_mem_cons.mp steps).2⟩
  | case9 place part rest _ not_dot not_dotDot =>
    next ih =>
      obtain ⟨⟨filled, whole⟩, later⟩ := List.forall_mem_cons.mp steps
      exact ih (names_snoc start ⟨filled, not_dot, not_dotDot, whole⟩) later h

theorem walk_names {tree : FileTree} {purpose : Purpose} {links : Nat} {place found : Place}
    {parts : List (List UInt8)} (start : ∀ part ∈ place, IsName part)
    (steps : ∀ part ∈ parts, part ≠ [] ∧ slash ∉ part)
    (h : tree.walk purpose links place parts = .ok found) : ∀ part ∈ found, IsName part := by
  induction links generalizing place parts found with
  | zero => exact walkTo_names (fun _ _ looped => by simp at looped) start steps h
  | succ links ih => exact walkTo_names ih start steps h

/-- What a tree calls the canonical path is one, if the working directory is a place. -/
theorem canonical_of_eq_ok {tree : FileTree} {p root : RawPath}
    (working : ∀ part ∈ tree.workingDirectory, IsName part)
    (h : tree.canonical p = .ok root) : Canonical root := by
  rw [canonical] at h
  split at h
  · cases h
  · cases found : tree.walk .spelling maxLinks (tree.startOf p) (partsOf p) with
    | error e =>
      rw [found] at h
      cases h
    | ok place =>
      rw [found] at h
      cases h
      refine ⟨place, walk_names ?_ (fun _ mem => partsOf_spec mem) found, rfl⟩
      rw [startOf]
      split
      · exact List.forall_mem_nil _
      · exact working

end FileTree

namespace RawPath

/-! ## Names -/

/-- The components of an absolute path behind the root of the file system. -/
inductive Component.Inner : Component → Prop
  | parent : Inner .parent
  | name {part : List UInt8} (isName : IsName part) : Inner (.name part)

theorem inner_of_mem_named {p : RawPath} {c : Component} (mem : c ∈ named p) : c.Inner := by
  obtain ⟨part, piece, is_component⟩ := List.mem_filterMap.mp mem
  unfold componentOfPart? at is_component
  split at is_component
  · cases is_component
  · next kept =>
    obtain ⟨filled, not_dot⟩ := not_or.mp kept
    split at is_component
    · cases is_component
      exact .parent
    · next not_dotDot =>
      cases is_component
      exact .name ⟨filled, not_dot, not_dotDot, Text.not_mem_of_mem_pieces piece⟩

/-- The components of a path below a canonical root, without the root of the file system. -/
theorem named_of_below {place : Place} (names : ∀ part ∈ place, IsName part) {path : RawPath}
    {below : List Component}
    (whole : components path = components (FileTree.pathOf place) ++ below) :
    named path = place.map .name ++ below := by
  rw [components_pathOf names, components_eq] at whole
  unfold lead at whole
  split at whole
  · exact (List.cons.inj whole).2
  · split at whole
    · exact absurd (List.cons.inj whole).1 (by simp)
    · -- a path whose first component is the root is absolute
      have first : Component.root ∈ named path := by
        rw [List.nil_append] at whole
        rw [whole]
        exact List.mem_cons_self
      cases inner_of_mem_named first

/-- The root of the file system is the first component of a path only. -/
theorem inner_of_canonical {root path : RawPath} {below : List Component}
    (canonical : Canonical root) (whole : components path = components root ++ below) :
    ∀ c ∈ below, c.Inner := by
  obtain ⟨place, names, rfl⟩ := canonical
  intro c mem
  apply inner_of_mem_named (p := path)
  rw [named_of_below names whole]
  exact List.mem_append_right _ mem

namespace Component.Inner

variable {c : Component}

theorem slash_not_mem_bytes (h : c.Inner) : slash ∉ c.bytes := by
  cases h with
  | parent => decide
  | name isName => exact isName.whole

theorem bytes_ne_dot (h : c.Inner) : c.bytes ≠ dot := by
  cases h with
  | parent => decide
  | name isName => exact isName.not_dot

theorem text_ne_nil (h : c.Inner) : c.text ≠ [] := by
  cases h with
  | parent => exact Text.ofBytesLossy_ne_nil (List.cons_ne_nil _ _)
  | name isName => exact Text.ofBytesLossy_ne_nil isName.filled

theorem slash_not_mem_text (h : c.Inner) : '/' ∉ c.text := by
  intro mem
  obtain ⟨b, among, same⟩ := Text.mem_of_mem_ofBytesLossy (by decide) mem
  have is_slash : b = slash := UInt8.toNat_inj.mp same
  exact h.slash_not_mem_bytes (is_slash ▸ among)

theorem text_ne_dot (h : c.Inner) : c.text ≠ ['.'] := by
  intro single
  have spelled := Text.eq_of_ofBytesLossy single (by simp)
  exact h.bytes_ne_dot spelled

end Component.Inner

/-- A name can be cut into the texts of its components again. -/
theorem pieces_nameOf {below : List Component} (some_below : below ≠ [])
    (inner : ∀ c ∈ below, c.Inner) :
    Text.pieces '/' (nameOf below).toList = below.map Component.text := by
  rw [nameOf, String.toList_ofList]
  apply Text.pieces_glue
  · intro piece mem
    obtain ⟨c, among, rfl⟩ := List.mem_map.mp mem
    exact (inner c among).slash_not_mem_text
  · simpa using some_below

/-- A name of components with single slashes between them. -/
structure Tidy (name : String) : Prop where
  filled : name ≠ ""
  pieces : ∀ piece ∈ Text.pieces '/' name.toList, piece ≠ [] ∧ piece ≠ ['.']
  front : name.toList.head? ≠ some '/'
  back : name.toList.getLast? ≠ some '/'

/-- Slashes at the ends of a name would leave an empty piece. -/
theorem tidy_of_pieces {name : String}
    (pieces : ∀ piece ∈ Text.pieces '/' name.toList, piece ≠ [] ∧ piece ≠ ['.']) : Tidy name := by
  have no_piece_empty : [] ∉ Text.pieces '/' name.toList := fun mem => (pieces [] mem).1 rfl
  refine ⟨?_, pieces, ?_, ?_⟩
  · rintro rfl
    exact no_piece_empty (List.mem_singleton_self _)
  · intro slash_first
    obtain ⟨rest, whole⟩ := List.head?_eq_some_iff.mp slash_first
    have cut : Text.pieces '/' ('/' :: rest) = [] :: Text.pieces '/' rest :=
      Text.pieces_append_sep [] rest
    rw [whole, cut] at no_piece_empty
    exact no_piece_empty List.mem_cons_self
  · intro slash_last
    obtain ⟨start, whole⟩ := List.getLast?_eq_some_iff.mp slash_last
    rw [whole, Text.pieces_append_sep start []] at no_piece_empty
    exact no_piece_empty (List.mem_append_right _ (List.mem_singleton_self _))

theorem tidy_nameOf {below : List Component} (some_below : below ≠ [])
    (inner : ∀ c ∈ below, c.Inner) : Tidy (nameOf below) := by
  apply tidy_of_pieces
  rw [pieces_nameOf some_below inner]
  intro piece mem
  obtain ⟨c, among, rfl⟩ := List.mem_map.mp mem
  exact ⟨(inner c among).text_ne_nil, (inner c among).text_ne_dot⟩

/-! ## Paths without a name -/

theorem relativeName?_root {root path : RawPath} (same : components path = components root) :
    relativeName? root path = none := by
  rw [Option.eq_none_iff_forall_ne_some]
  intro name found
  obtain ⟨below, some_below, whole, -⟩ := relativeName?_eq_some_iff.mp found
  rw [same] at whole
  exact some_below (List.self_eq_append_right.mp whole)

/-- A name with more behind it is another name. -/
theorem isName_append {part : List UInt8} (h : IsName part) {b : UInt8} (other : b ≠ slash)
    {more : List UInt8} (whole : slash ∉ more) : IsName (part ++ b :: more) := by
  refine ⟨by simp, ?_, ?_, ?_⟩
  · intro single
    have length := congrArg List.length single
    have filled : 0 < part.length := List.length_pos_iff.mpr h.filled
    simp only [List.length_append, List.length_cons, dot, List.length_nil] at length
    omega
  · intro two
    -- two dots would begin with a part that is a single dot
    obtain ⟨first, rest, rfl⟩ := List.exists_cons_of_ne_nil h.filled
    have length := congrArg List.length two
    simp only [List.length_append, List.length_cons, dotDot, List.length_nil] at length
    obtain rfl : rest = [] := List.length_eq_zero_iff.mp (by omega)
    obtain ⟨is_dot, -⟩ := List.cons.inj two
    exact h.not_dot (by rw [is_dot]; rfl)
  · simp only [List.mem_append, List.mem_cons, not_or]
    exact ⟨h.whole, Ne.symm other, whole⟩

/-- What begins with the text of a root without a slash behind it lies beside the root. -/
theorem relativeName?_sibling {root : RawPath} (canonical : Canonical root)
    (not_slash : root ≠ [slash]) {b : UInt8} (other : b ≠ slash) (rest : List UInt8) :
    relativeName? root (root ++ b :: rest) = none := by
  obtain ⟨place, names, rfl⟩ := canonical
  have some_part : place ≠ [] := by
    rintro rfl
    exact not_slash rfl
  obtain ⟨start, last, rfl⟩ := (List.eq_nil_or_concat' place).resolve_left some_part
  have names_start : ∀ part ∈ start, IsName part :=
    fun part mem => names part (List.mem_append_left _ mem)
  have name_last : IsName last := names last (List.mem_append_right _ (List.mem_singleton_self _))
  obtain ⟨more, pieces, cut⟩ := List.exists_cons_of_ne_nil (Text.pieces_ne_nil slash rest)
  have spelled : FileTree.pathOf (start ++ [last]) ++ b :: rest =
      start.flatMap (slash :: ·) ++ slash :: (last ++ b :: rest) := by
    have filled : FileTree.pathOf (start ++ [last]) = (start ++ [last]).flatMap (slash :: ·) := by
      cases start <;> rfl
    rw [filled]
    simp
  have last_part : named (last ++ b :: rest) =
      .name (last ++ b :: more) :: pieces.filterMap componentOfPart? := by
    have cut_here : Text.pieces slash (b :: rest) = (b :: more) :: pieces := by
      rw [Text.pieces, if_neg other, cut]
    have whole : slash ∉ more := Text.not_mem_of_mem_pieces (by rw [cut]; exact List.mem_cons_self)
    rw [named, Text.pieces_append_front name_last.whole cut_here, List.filterMap_cons,
      (isName_append name_last other whole).component]
  rw [Option.eq_none_iff_forall_ne_some]
  intro name found
  obtain ⟨below, -, whole, -⟩ := relativeName?_eq_some_iff.mp found
  have parts := named_of_below names whole
  rw [spelled, named_append_slash, ← List.nil_append (start.flatMap _), named_flatMap names_start,
    named_nil, last_part, List.map_append, List.nil_append, List.append_assoc] at parts
  have longer := (List.cons.inj (List.append_cancel_left parts)).1
  have length := congrArg List.length (Component.name.inj longer)
  simp at length

end RawPath

end DirWatch
