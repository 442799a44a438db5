import DirWatch.Proofs.Json.Members
import DirWatch.Proofs.Json.Writing
import Mathlib.Data.List.TakeWhile

/-!
# Objects that name settings

An object may name some settings of a structure, in any order and among members that the structure
does not have (`Describes`). A shape whose members are these settings reads such an object as what
the settings make of the blank draft (`Shape.Reads.takes`), and refuses one that names a setting
twice (`Shape.Reads.fails`).
-/

namespace DirWatch.Json

/-! ## Whole texts -/

/-- A text that is one value with blanks around it. -/
def Document (text : String) (v : List Char) : Prop :=
  ∃ b b', Blank b ∧ Blank b' ∧ text.toList = b ++ (v ++ b')

namespace Reader

variable {α : Type} {reader : Reader α} {text : String} {v : List Char}

theorem Takes.readAll {a : α} (takes : reader.Takes v a) (document : Document text v) :
    reader.readAll text = .ok a := by
  obtain ⟨b, b', before, after, whole⟩ := document
  have nothing_left : skipSpace b' = [] := List.dropWhile_eq_nil_iff.mpr after
  rw [Reader.readAll, whole, takes b b' before after.breaks_last]
  dsimp only
  rw [if_pos nothing_left]

theorem Fails.readAll (fails : reader.Fails v) (document : Document text v) :
    ∃ e, reader.readAll text = .error e := by
  obtain ⟨b, b', before, after, whole⟩ := document
  obtain ⟨e, failed⟩ := fails b b' before after.breaks_last
  refine ⟨e, ?_⟩
  rw [Reader.readAll, whole, failed]

end Reader

/-! ## Settings -/

variable {ι σ α : Type} {name : ι → String} {Text : ι → List Char → Prop}

/-- The members of an object, and the settings among them: `Text` says which values a setting may be
written as. A member that has no setting's name may have any value. -/
inductive Named (name : ι → String) (Text : ι → List Char → Prop) :
    List (String × List Char) → List ι → Prop
  | nil : Named name Text [] []
  | setting {x : ι} {v : List Char} {named : List (String × List Char)} {xs : List ι}
    (text : Text x v) (rest : Named name Text named xs) :
    Named name Text ((name x, v) :: named) (x :: xs)
  | other {n : String} {v : List Char} {named : List (String × List Char)} {xs : List ι}
    (unknown : ∀ x, name x ≠ n) (value : ValueText v) (rest : Named name Text named xs) :
    Named name Text ((n, v) :: named) xs

theorem Named.text_of_mem {named : List (String × List Char)} {xs : List ι}
    (settings : Named name Text named xs) : ∀ x ∈ xs, ∃ v, Text x v := by
  induction settings with
  | nil => exact List.forall_mem_nil _
  | setting text _ ih => exact List.forall_mem_cons.mpr ⟨⟨_, text⟩, ih⟩
  | other _ _ _ ih => exact ih

/-- An object that names some settings, none of them twice, among members with other names. -/
def Describes (name : ι → String) (Text : ι → List Char → Prop) (v : List Char) (xs : List ι) :
    Prop :=
  (xs.map name).Nodup ∧ ∃ named, ObjectText named v ∧ Named name Text named xs

/-- What settings put into a draft is what they change in the whole that the draft is filled up to,
and settings with different names do not get into each other's way. -/
structure Fills (name : ι → String) (put : ι → σ → σ) (fill : σ → α) (apply : α → ι → α) :
    Prop where
  put : ∀ x draft, fill (put x draft) = apply (fill draft) x
  comm : ∀ x y, name x ≠ name y → ∀ a, apply (apply a x) y = apply (apply a y) x

namespace Fills

variable {put : ι → σ → σ} {fill : σ → α} {apply : α → ι → α}

theorem foldl (fills : Fills name put fill apply) (xs : List ι) (draft : σ) :
    fill (xs.foldl (fun d x => put x d) draft) = xs.foldl apply (fill draft) :=
  (List.foldl_hom fill fun draft x => (fills.put x draft).symm).symm

/-- Settings with names of their own may be applied in any order. -/
theorem perm (fills : Fills name put fill apply) {xs ys : List ι} (distinct : (xs.map name).Nodup)
    (perm : xs.Perm ys) (a : α) : xs.foldl apply a = ys.foldl apply a := by
  apply perm.foldl_eq'
  intro x mem y mem' a
  -- a name occurs once, so that settings with the same name are the same setting
  by_cases same : name x = name y
  · rw [List.inj_on_of_nodup_map distinct mem mem' same]
  · exact fills.comm x y same a

end Fills

/-- A written object describes the settings that it was written from. -/
theorem describes_compact (settings : List (ι × Value))
    (once : (settings.map fun p => name p.1).Nodup)
    (texts : ∀ p ∈ settings, Text p.1 p.2.compact) :
    Describes name Text (Value.object (settings.map fun p => (name p.1, p.2))).compact
      (settings.map Prod.fst) := by
  refine ⟨by rwa [List.map_map], _, objectText_compact _, ?_⟩
  clear once
  induction settings with
  | nil => exact .nil
  | cons p settings ih =>
    obtain ⟨first, others⟩ := List.forall_mem_cons.mp texts
    exact .setting first (ih others)

/-- A well-formed object that names a setting more than once. -/
def NamesTwice (name : ι → String) (v : List Char) : Prop :=
  ∃ named, ObjectText named v ∧ (∀ n ∈ named, ValueText n.2) ∧
    ∃ x, 2 ≤ (named.map Prod.fst).count (name x)

namespace Shape

/-- The members of a shape are some settings: each is read from its texts and put into the draft. -/
structure Reads (shape : Shape σ α) (name : ι → String) (Text : ι → List Char → Prop)
    (put : ι → σ → σ) : Prop where
  lawful : shape.Lawful
  member : ∀ x, ∃ m ∈ shape.members, m.name = name x ∧ ∀ v, Text x v → m.value.Takes v (put x)
  setting : ∀ m ∈ shape.members, ∃ x, name x = m.name

variable {shape : Shape σ α} {put : ι → σ → σ}

theorem Reads.taken (reads : shape.Reads name Text put) {named : List (String × List Char)}
    {xs : List ι} (settings : Named name Text named xs) :
    ∃ puts, Taken shape.members named puts ∧ (puts.map fun p => p.1.name) = xs.map name ∧
      ∀ draft, fill draft puts = xs.foldl (fun d x => put x d) draft := by
  induction settings with
  | nil => exact ⟨[], .nil, rfl, fun _ => rfl⟩
  | @setting x v named xs text _ ih =>
    obtain ⟨puts, taken, names, fills⟩ := ih
    obtain ⟨m, mem, same, takes⟩ := reads.member x
    refine ⟨(m, put x) :: puts, ?_, ?_, ?_⟩
    · rw [← same]
      exact .listed mem (takes v text) taken
    · rw [List.map_cons, List.map_cons, names, same]
    · exact fun draft => fills (put x draft)
  | @other n v named xs unknown value _ ih =>
    obtain ⟨puts, taken, names, fills⟩ := ih
    refine ⟨puts, .other ?_ value taken, names, fills⟩
    intro m mem
    obtain ⟨x, same⟩ := reads.setting m mem
    rw [← same]
    exact unknown x

/-- An object is taken for what the settings that it names make of the blank draft. -/
theorem Reads.takes (reads : shape.Reads name Text put) {v : List Char} {xs : List ι}
    (describes : Describes name Text v xs) {a : α}
    (complete : shape.complete (xs.foldl (fun d x => put x d) shape.blank) = .ok a) :
    shape.reader.Takes v a := by
  obtain ⟨once, named, object, settings⟩ := describes
  obtain ⟨puts, taken, names, fills⟩ := reads.taken settings
  rw [← names] at once
  rw [← fills] at complete
  exact takes_reader reads.lawful taken once object complete

/-- An object that names a setting twice is refused. -/
theorem Reads.fails (reads : shape.Reads name Text put) {v : List Char}
    (twice : NamesTwice name v) : shape.reader.Fails v := by
  obtain ⟨named, object, values, x, count⟩ := twice
  obtain ⟨m, mem, same, -⟩ := reads.member x
  rw [← same] at count
  exact fails_reader reads.lawful values mem (.inl count) object

end Shape

end DirWatch.Json
