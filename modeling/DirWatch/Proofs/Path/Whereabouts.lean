import DirWatch.Proofs.Path.Components
import Mathlib.Data.List.Induction

/-!
# Where named paths lead

A name is found by comparing components, and two dots are a component like any other. Where a path
has no two dots, it has a name exactly if it leads to a place below the root
(`relativeName?_iff_inside`). Two dots behind the root may lead out of it, and the path still has a
name: it leads below the root only if it comes back in through every level that it has left
(`inside_iff`).
-/

namespace DirWatch.RawPath

/-! ## Places that paths lead to -/

/-- The place that a component leads to from another one, by its spelling alone. -/
def Component.step (place : Place) : Component → Place
  | root => []
  | here => place
  | parent => place.dropLast
  | name part => place ++ [part]

/-- The place that an absolute path leads to, by its spelling alone. -/
def leadsTo (p : RawPath) : Place := (components p).foldl Component.step []

/-- A path leads to a place below the one that another path leads to. -/
def Inside (root path : RawPath) : Prop := ∃ rest, rest ≠ [] ∧ leadsTo path = leadsTo root ++ rest

theorem foldl_names (place names : Place) :
    (names.map Component.name).foldl Component.step place = place ++ names := by
  induction names generalizing place with
  | nil => exact (List.append_nil place).symm
  | cons part names ih =>
    rw [List.map_cons, List.foldl_cons, ih]
    exact List.append_assoc place [part] names

theorem leadsTo_pathOf {place : Place} (names : ∀ part ∈ place, IsName part) :
    leadsTo (FileTree.pathOf place) = place := by
  rw [leadsTo, components_pathOf names, List.foldl_cons]
  exact foldl_names [] place

theorem leadsTo_of_below {root path : RawPath} {below : List Component}
    (whole : components path = components root ++ below) :
    leadsTo path = below.foldl Component.step (leadsTo root) := by
  rw [leadsTo, whole, List.foldl_append]
  rfl

/-! ## Paths without two dots -/

theorem exists_names {below : List Component} (inner : ∀ c ∈ below, c.Inner)
    (straight : Component.parent ∉ below) : ∃ names : Place, below = names.map Component.name := by
  induction below with
  | nil => exact ⟨[], rfl⟩
  | cons c below ih =>
    obtain ⟨first, rest⟩ := List.forall_mem_cons.mp inner
    obtain ⟨names, rfl⟩ := ih rest (fun mem => straight (List.mem_cons_of_mem _ mem))
    cases first with
    | parent => exact absurd List.mem_cons_self straight
    | @name part isName => exact ⟨part :: names, rfl⟩

theorem isAbsolute_of_root_mem {p : RawPath} (mem : Component.root ∈ components p) :
    isAbsolute p = true := by
  rw [components_eq] at mem
  rcases List.mem_append.mp mem with front | part
  · unfold lead at front
    split at front
    · assumption
    · split at front
      · cases List.mem_singleton.mp front
      · cases front
  · cases inner_of_mem_named part

/-- Names behind the root lead below it. -/
theorem inside_of_straight {root path : RawPath} (canonical : Canonical root)
    {below : List Component} (some_below : below ≠ [])
    (whole : components path = components root ++ below) (straight : Component.parent ∉ below) :
    Inside root path := by
  obtain ⟨names, rfl⟩ := exists_names (inner_of_canonical canonical whole) straight
  refine ⟨names, ?_, ?_⟩
  · rintro rfl
    exact some_below rfl
  · rw [leadsTo_of_below whole, foldl_names]

/-- Without two dots, the paths that have a name are those that lead below the root. -/
theorem relativeName?_iff_inside {root path : RawPath} (canonical : Canonical root)
    (straight : Component.parent ∉ components path) :
    (∃ name, relativeName? root path = some name) ↔ isAbsolute path = true ∧ Inside root path := by
  constructor
  · rintro ⟨name, found⟩
    obtain ⟨below, some_below, whole, -⟩ := relativeName?_eq_some_iff.mp found
    have straight_below : Component.parent ∉ below := by
      intro mem
      rw [whole] at straight
      exact straight (List.mem_append_right _ mem)
    have absolute : Component.root ∈ components path := by
      obtain ⟨place, names, rfl⟩ := canonical
      rw [whole, components_pathOf names]
      exact List.mem_cons_self
    exact ⟨isAbsolute_of_root_mem absolute,
      inside_of_straight canonical some_below whole straight_below⟩
  · rintro ⟨absolute, rest, some_rest, inside⟩
    obtain ⟨place, names, rfl⟩ := canonical
    have front : components path = .root :: named path := by
      rw [components_eq, lead, if_pos absolute]
      rfl
    -- all that an absolute path without two dots has are names, and they spell its place
    rw [front] at straight
    obtain ⟨parts, parts_eq⟩ := exists_names (fun c mem => inner_of_mem_named mem)
      (fun mem => straight (List.mem_cons_of_mem _ mem))
    have there : leadsTo path = parts := by
      rw [leadsTo, front, parts_eq, List.foldl_cons]
      exact foldl_names [] parts
    rw [there, leadsTo_pathOf names] at inside
    refine ⟨_, relativeName?_eq_some_iff.mpr ⟨rest.map .name, ?_, ?_, rfl⟩⟩
    · simpa using some_rest
    · rw [front, parts_eq, inside, components_pathOf names, List.map_append]
      rfl

/-! ## Paths with two dots -/

/-- A way from a place: some levels up, and along some names from there. -/
structure Trail where
  up : Nat
  down : Place

namespace Trail

/-- The way with one more component at its end. -/
def step (t : Trail) : Component → Trail
  | .root | .here => t
  | .parent => if t.down = [] then ⟨t.up + 1, []⟩ else ⟨t.up, t.down.dropLast⟩
  | .name part => ⟨t.up, t.down ++ [part]⟩

/-- The way along some components. -/
def along (below : List Component) : Trail := below.foldl step ⟨0, []⟩

/-- Where a way from a place ends. -/
def endFrom (t : Trail) (place : Place) : Place := place.take (place.length - t.up) ++ t.down

theorem endFrom_step (t : Trail) (place : Place) {c : Component} (inner : c.Inner) :
    (t.step c).endFrom place = Component.step (t.endFrom place) c := by
  cases inner with
  | name isName => exact (List.append_assoc _ _ _).symm
  | parent =>
    show (if t.down = [] then _ else _ : Trail).endFrom place = (t.endFrom place).dropLast
    by_cases nothing_down : t.down = []
    · have levels : place.length - (t.up + 1) =
          min (min (place.length - t.up) place.length - 1) (place.length - t.up) := by omega
      rw [if_pos nothing_down, endFrom, endFrom, nothing_down, List.append_nil, List.append_nil,
        List.dropLast_eq_take, List.length_take, List.take_take, levels]
    · rw [if_neg nothing_down, endFrom, endFrom, List.dropLast_append_of_ne_nil nothing_down]

theorem endFrom_along {below : List Component} (inner : ∀ c ∈ below, c.Inner) (place : Place) :
    (along below).endFrom place = below.foldl Component.step place := by
  -- from the end, since a component of the walk acts on where all before it have led
  induction below using List.reverseRecOn with
  | nil =>
    show place.take (place.length - 0) ++ [] = place
    rw [List.append_nil, Nat.sub_zero, List.take_length]
  | append_singleton below c ih =>
    obtain ⟨before, last⟩ := List.forall_mem_append.mp inner
    rw [along, List.foldl_append, List.foldl_append, ← ih before]
    exact endFrom_step _ _ (last c (List.mem_singleton_self c))

/-- A way ends behind a place if it comes back through all the levels that it has left. -/
theorem endFrom_eq_append_iff {t : Trail} {place rest : Place} :
    t.endFrom place = place ++ rest ↔ t.down = place.drop (place.length - t.up) ++ rest := by
  have split : place ++ rest = place.take (place.length - t.up) ++
      (place.drop (place.length - t.up) ++ rest) := by
    rw [← List.append_assoc, List.take_append_drop]
  rw [endFrom, split, List.append_right_inj]

end Trail

/-- A path with a name leads below the root if it comes back in through every level of the root
that it has left, and goes on from there. -/
theorem inside_iff {root path : RawPath} (canonical : Canonical root) {below : List Component}
    (whole : components path = components root ++ below) :
    Inside root path ↔ ∃ rest, rest ≠ [] ∧ (Trail.along below).down =
      (leadsTo root).drop ((leadsTo root).length - (Trail.along below).up) ++ rest := by
  rw [Inside, leadsTo_of_below whole,
    ← Trail.endFrom_along (inner_of_canonical canonical whole)]
  simp only [Trail.endFrom_eq_append_iff]

/-! ## All together -/

/-- Which of the paths that have a name lead below a root. -/
structure Whereabouts (root : RawPath) : Prop where
  /-- Without two dots, they all do, and no other path does. -/
  straight (path : RawPath) (no_dots : Component.parent ∉ components path) :
    (∃ name, relativeName? root path = some name) ↔ isAbsolute path = true ∧ Inside root path
  /-- If there are no two dots in the name, the path leads below the root. -/
  named (path : RawPath) (name : String) (found : relativeName? root path = some name)
    (no_dots : ['.', '.'] ∉ Text.pieces '/' name.toList) : Inside root path
  /-- In general, it has to come back in through every level that it has left. -/
  climbing (path : RawPath) (name : String) (found : relativeName? root path = some name) :
    ∃ below, below ≠ [] ∧ components path = components root ++ below ∧ name = nameOf below ∧
      (Inside root path ↔ ∃ rest, rest ≠ [] ∧ (Trail.along below).down =
        (leadsTo root).drop ((leadsTo root).length - (Trail.along below).up) ++ rest)

theorem whereabouts (root : RawPath) (canonical : Canonical root) : Whereabouts root where
  straight path no_dots := relativeName?_iff_inside canonical no_dots
  named path name found no_dots := by
    obtain ⟨below, some_below, whole, rfl⟩ := relativeName?_eq_some_iff.mp found
    apply inside_of_straight canonical some_below whole
    intro mem
    rw [pieces_nameOf some_below (inner_of_canonical canonical whole)] at no_dots
    have spelled : Component.text .parent = ['.', '.'] := by decide +kernel
    exact no_dots (spelled ▸ List.mem_map_of_mem mem)
  climbing path name found := by
    obtain ⟨below, some_below, whole, rfl⟩ := relativeName?_eq_some_iff.mp found
    exact ⟨below, some_below, whole, rfl, inside_iff canonical whole⟩

/-- Under `/w`, the file `/w/a` has a name and lies inside. -/
theorem whereabouts_ofW :
    Canonical (ofString "/w") ∧ relativeName? (ofString "/w") (ofString "/w/a") = some "a" ∧
      Inside (ofString "/w") (ofString "/w/a") := by
  have canonical : Canonical (ofString "/w") :=
    canonical_of_isName ⟨by decide, by decide, by decide, by decide⟩
  have found : relativeName? (ofString "/w") (ofString "/w/a") = some "a" := by decide +kernel
  exact ⟨canonical, found, (whereabouts _ canonical).named _ _ found (by decide)⟩

/-- Under `/w`, two paths have names that do not lead inside: one to a file beside the root, and one
to the root itself. -/
theorem exists_named_outside :
    Canonical (ofString "/w") ∧
      relativeName? (ofString "/w") (ofString "/w/../x") = some "../x" ∧
      leadsTo (ofString "/w/../x") = leadsTo (ofString "/x") ∧
      ¬ Inside (ofString "/w") (ofString "/w/../x") ∧
      relativeName? (ofString "/w") (ofString "/w/a/..") = some "a/.." ∧
      leadsTo (ofString "/w/a/..") = leadsTo (ofString "/w") ∧
      ¬ Inside (ofString "/w") (ofString "/w/a/..") := by
  have shorter {path : RawPath} (short : (leadsTo path).length ≤ (leadsTo (ofString "/w")).length) :
      ¬ Inside (ofString "/w") path := by
    rintro ⟨rest, some_rest, inside⟩
    rw [inside, List.length_append] at short
    have filled := List.length_pos_iff.mpr some_rest
    omega
  refine ⟨canonical_of_isName ⟨by decide, by decide, by decide, by decide⟩, ?_⟩
  exact ⟨by decide +kernel, by decide, shorter (by decide),
    by decide +kernel, by decide, shorter (by decide)⟩

end DirWatch.RawPath
