import DirWatch.Notice.Basic
import DirWatch.Proofs.Record.Layout

/-!
# Changes have names

The change that a watch makes of a notice says which components the path has below the root
(`Notice.change?_eq_some_iff`). Its name has at least one character (`Notice.change?_named`): the
path lies strictly below the root, and no component is spelled by nothing. Hence it has a record,
unless the name is too long.
-/

namespace DirWatch

/-- A change with a name. -/
def Change.Named (c : Change) : Prop := c.units ≠ []

namespace Text

theorem ofBytesLossy_ne_nil {bytes : List UInt8} (h : bytes ≠ []) : ofBytesLossy bytes ≠ [] := by
  cases bytes with
  | nil => exact absurd rfl h
  | cons b r =>
    rw [ofBytesLossy]
    split <;> exact List.cons_ne_nil _ _

theorem glue_ne_nil {between : List α} {ps : List (List α)} (some_piece : ps ≠ [])
    (filled : ∀ p ∈ ps, p ≠ []) : glue between ps ≠ [] := by
  match ps with
  | [] => exact absurd rfl some_piece
  | [p] => exact filled p List.mem_cons_self
  | p :: q :: ps =>
    rw [glue, List.append_assoc]
    exact List.append_ne_nil_of_left_ne_nil (filled p List.mem_cons_self) _

theorem encodeUnits_ne_nil {s : List Char} (h : s ≠ []) : encodeUnits s ≠ [] := by
  cases s with
  | nil => exact absurd rfl h
  | cons c r =>
    have some_unit := unitsOfChar_length_pos c
    rw [encodeUnits, List.flatMap_cons]
    exact List.append_ne_nil_of_left_ne_nil (List.ne_nil_of_length_pos some_unit) _

end Text

namespace RawPath

/-- Every component of a path is spelled by at least one byte. -/
theorem bytes_ne_nil_of_mem_components {p : RawPath} {c : Component} (h : c ∈ components p) :
    c.bytes ≠ [] := by
  have part : ∀ c ∈ (Text.pieces slash p).filterMap componentOfPart?, c.bytes ≠ [] := by
    intro c hc
    obtain ⟨part, -, hpart⟩ := List.mem_filterMap.mp hc
    unfold componentOfPart? at hpart
    split at hpart
    · simp at hpart
    · next filled =>
      split at hpart
      · obtain rfl := Option.some.inj hpart
        exact List.cons_ne_nil _ _
      · obtain rfl := Option.some.inj hpart
        exact fun none_left => filled (.inl none_left)
  simp only [components] at h
  split at h
  · rcases List.mem_cons.mp h with rfl | h
    · exact List.cons_ne_nil _ _
    · exact part c h
  · split at h
    · rcases List.mem_cons.mp h with rfl | h
      · exact List.cons_ne_nil _ _
      · exact part c h
    · exact part c h

/-- The text of a component; what is no text in it is U+FFFD. -/
def Component.text (c : Component) : List Char := Text.ofBytesLossy c.bytes

/-- The name that components below a root make: their texts with slashes between them. -/
def nameOf (below : List Component) : String :=
  String.ofList (Text.glue ['/'] (below.map Component.text))

theorem relativeName?_eq_some_iff {root path : RawPath} {name : String} :
    relativeName? root path = some name ↔
      ∃ below, below ≠ [] ∧ components path = components root ++ below ∧ name = nameOf below := by
  have found (rest : List Component) : below? root path = some rest ↔
      components path = components root ++ rest := afterPrefix?_eq_some_iff
  unfold relativeName?
  split
  · next outside =>
    constructor
    · intro h
      cases h
    · rintro ⟨below, -, whole, -⟩
      rw [(found below).mpr whole] at outside
      cases outside
  · next same =>
    constructor
    · intro h
      cases h
    · rintro ⟨below, some_below, whole, -⟩
      rw [(found below).mpr whole] at same
      exact absurd (Option.some.inj same) some_below
  · next below some_below inside =>
    constructor
    · intro h
      exact ⟨below, some_below, (found below).mp inside, (Option.some.inj h).symm⟩
    · rintro ⟨rest, -, whole, rfl⟩
      rw [(found rest).mpr whole] at inside
      rw [← Option.some.inj inside]
      rfl

theorem relativeName?_ne_nil {root path : RawPath} {name : String}
    (h : relativeName? root path = some name) : name.toList ≠ [] := by
  obtain ⟨below, some_below, whole, rfl⟩ := relativeName?_eq_some_iff.mp h
  rw [nameOf, String.toList_ofList]
  refine Text.glue_ne_nil (fun none_left => some_below (List.map_eq_nil_iff.mp none_left)) ?_
  intro piece hpiece
  obtain ⟨c, hc, rfl⟩ := List.mem_map.mp hpiece
  refine Text.ofBytesLossy_ne_nil (bytes_ne_nil_of_mem_components (p := path) ?_)
  rw [whole]
  exact List.mem_append_right _ hc

end RawPath

namespace Notice

open RawPath

variable {present : RawPath → Bool} {root : RawPath} {f : Filter} {n : Notice} {c : Change}

/-- What a notice says, and whether the filter lets it through. -/
theorem change?_eq_some_iff :
    n.change? present root f = some c ↔
      ∃ path classes below, n.paths.head? = some path ∧
        n.kind.classify (present path) = some (c.action, classes) ∧ f.intersects classes = true ∧
        below ≠ [] ∧ components path = components root ++ below ∧ c.path = nameOf below := by
  simp only [change?]
  constructor
  · intro made
    split at made
    · cases made
    · next action classes classified =>
      split at made
      · next admitted =>
        obtain ⟨name, named, rfl⟩ := Option.map_eq_some_iff.mp made
        obtain ⟨path, first, relative⟩ := Option.bind_eq_some_iff.mp named
        obtain ⟨below, some_below, whole, rfl⟩ := relativeName?_eq_some_iff.mp relative
        rw [first] at classified
        exact ⟨path, classes, below, first, classified, admitted, some_below, whole, rfl⟩
      · cases made
  · rintro ⟨path, classes, below, first, classified, admitted, some_below, whole, named⟩
    have relative : relativeName? root path = some (nameOf below) :=
      relativeName?_eq_some_iff.mpr ⟨below, some_below, whole, rfl⟩
    rw [first, Option.any_some, classified]
    simp only [admitted, if_true, Option.bind_some, relative, Option.map_some]
    rw [← named]

/-- The change that a watch makes of a notice has a name. -/
theorem change?_named (h : n.change? present root f = some c) : c.Named := by
  obtain ⟨path, _, below, -, -, -, some_below, whole, named⟩ := change?_eq_some_iff.mp h
  have relative := relativeName?_eq_some_iff.mpr ⟨below, some_below, whole, named⟩
  exact Text.encodeUnits_ne_nil (relativeName?_ne_nil relative)

end Notice

end DirWatch
