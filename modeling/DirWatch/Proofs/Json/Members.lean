import DirWatch.Proofs.Json.Taking
import Mathlib.Data.List.Nodup

/-!
# What readers of structures take

A structure is read from an object whose members come in any order, listed ones among others. If the
values of the listed members can be read and none of them is named twice, all of them reach the
draft (`Shape.takes_reader`); if one of them is named twice or cannot be read, the object is refused
(`Shape.fails_reader`).
-/

namespace DirWatch.Json

/-! ## Keys -/

theorem nextKey_close {b : List Char} (blank : Blank b) (fresh : Bool) (rest : List Char) :
    Shape.nextKey fresh (b ++ '\x7d' :: rest) = .ok (none, rest) := by
  rw [Shape.nextKey, skipSpace_append blank, skipSpace_cons (by decide)]
  dsimp only
  rw [if_pos rfl]

/-- The key of the next member is read; behind its colon stand the value and the other members. -/
theorem MembersText.next_key {fresh : Bool} {name : String} {v s : List Char}
    {named : List (String × List Char)} (text : MembersText fresh ((name, v) :: named) s) :
    ∃ others, MembersText false named others ∧ ∀ rest, ∃ t b, Blank b ∧
      Shape.nextKey fresh (s ++ rest) = .ok (some name, t) ∧
        skipMark ':' t = .ok (b ++ (v ++ (others ++ rest))) := by
  cases text with
  | @first _ head _ others _ key more =>
    refine ⟨others, more, ?_⟩
    intro rest
    obtain ⟨c, k, c', c'', front, text, colon, value, rfl⟩ := key
    refine ⟨c' ++ ':' :: (c'' ++ (v ++ (others ++ rest))), c'', value, ?_,
      skipMark_append colon (by decide) _⟩
    have regrouped : (c ++ '"' :: (k ++ (c' ++ ':' :: c''))) ++ (v ++ others) ++ rest =
        c ++ '"' :: (k ++ (c' ++ ':' :: (c'' ++ (v ++ (others ++ rest))))) := by
      simp only [List.append_assoc, List.cons_append]
    rw [regrouped, Shape.nextKey, skipSpace_append front, skipSpace_cons (by decide)]
    dsimp only
    rw [if_neg (by decide), if_pos rfl, if_pos rfl, readString_append text, Except.map,
      String.ofList_toList]
  | @next _ b head _ others _ blank key more =>
    refine ⟨others, more, ?_⟩
    intro rest
    obtain ⟨c, k, c', c'', front, text, colon, value, rfl⟩ := key
    refine ⟨c' ++ ':' :: (c'' ++ (v ++ (others ++ rest))), c'', value, ?_,
      skipMark_append colon (by decide) _⟩
    have regrouped : b ++ ',' :: ((c ++ '"' :: (k ++ (c' ++ ':' :: c''))) ++ (v ++ others)) ++ rest =
        b ++ ',' :: (c ++ '"' :: (k ++ (c' ++ ':' :: (c'' ++ (v ++ (others ++ rest)))))) := by
      simp only [List.append_assoc, List.cons_append]
    rw [regrouped, Shape.nextKey, skipSpace_append blank, skipSpace_cons (by decide)]
    dsimp only
    rw [if_neg (by decide), if_neg (by decide), if_pos rfl, skipMark_append front (by decide)]
    dsimp only
    rw [readString_append text, Except.map, String.ofList_toList]

namespace Shape

variable {σ α : Type} {shape : Shape σ α}

theorem readMembers_eq (members : List (Member σ)) (fresh : Bool) (draft : σ) (s : List Char) :
    readMembers members fresh draft s = match nextKey fresh s with
      | .error e => .error e
      | .ok (none, r) => .ok (draft, r)
      | .ok (some key, r) => match readMember members key draft r with
        | .error e => .error e
        | .ok (draft, r) => readMembers members false draft r := by
  conv => lhs; rw [readMembers]
  split
  · next failed => rw [failed]
  · next closed => rw [closed]
  · next found =>
    rw [found]
    dsimp only
    split
    · next failed => rw [failed]
    · next member => rw [member]

/-! ## Listed members -/

/-- What a structure promises to its readers: its members have names of their own, a fresh draft has
none of them, and reading one of them sets this one and takes the whole of its value. -/
structure Lawful (shape : Shape σ α) : Prop where
  distinct : (shape.members.map Member.name).Nodup
  blank : ∀ m ∈ shape.members, m.isSet shape.blank = false
  sets : ∀ m ∈ shape.members, ∀ s put r, m.value.run s = .ok (put, r) →
    ∀ m' ∈ shape.members, ∀ draft, m'.isSet (put draft) = (m'.isSet draft || m'.name == m.name)
  exact : ∀ m ∈ shape.members, m.value.Exact

/-- A member that is set by what its own reader reads, and by nothing else. -/
def Settable (members : List (Member σ)) (m : Member σ) : Prop :=
  ∃ (β : Type) (reader : Reader β) (put : β → σ → σ), m.value = reader.map put ∧ reader.Exact ∧
    ∀ b draft, ∀ m' ∈ members, m'.isSet (put b draft) = (m'.isSet draft || m'.name == m.name)

theorem lawful_of_settable (distinct : (shape.members.map Member.name).Nodup)
    (blank : ∀ m ∈ shape.members, m.isSet shape.blank = false)
    (settable : ∀ m ∈ shape.members, Settable shape.members m) : shape.Lawful where
  distinct := distinct
  blank := blank
  sets := by
    intro m mem s put r reads m' mem' draft
    obtain ⟨β, reader, put', built, -, sets⟩ := settable m mem
    rw [built] at reads
    obtain ⟨b, -, rfl⟩ := Reader.map_eq_ok reads
    exact sets b draft m' mem'
  exact := by
    intro m mem
    obtain ⟨β, reader, put, built, exact_reader, -⟩ := settable m mem
    rw [built]
    exact exact_reader.map put

theorem Lawful.find (lawful : shape.Lawful) {m : Member σ} (mem : m ∈ shape.members) :
    (shape.members.find? fun m' => m'.name == m.name) = some m := by
  cases found : shape.members.find? fun m' => m'.name == m.name with
  | none =>
    have not_named := List.find?_eq_none.mp found m mem
    simp at not_named
  | some m' =>
    have named := List.find?_some found
    have mem' := List.mem_of_find?_eq_some found
    rw [List.inj_on_of_nodup_map lawful.distinct mem' mem (by simpa using named)]

/-- The members of an object, and what those that are listed put into the draft. Others are
skipped. -/
inductive Taken (members : List (Member σ)) :
    List (String × List Char) → List (Member σ × (σ → σ)) → Prop
  | nil : Taken members [] []
  | listed {m : Member σ} {v : List Char} {put : σ → σ} {named : List (String × List Char)}
    {puts : List (Member σ × (σ → σ))} (mem : m ∈ members) (takes : m.value.Takes v put)
    (rest : Taken members named puts) : Taken members ((m.name, v) :: named) ((m, put) :: puts)
  | other {name : String} {v : List Char} {named : List (String × List Char)}
    {puts : List (Member σ × (σ → σ))} (unlisted : ∀ m ∈ members, m.name ≠ name)
    (value : ValueText v) (rest : Taken members named puts) :
    Taken members ((name, v) :: named) puts

theorem Taken.listed_of_mem {members : List (Member σ)} {named : List (String × List Char)}
    {puts : List (Member σ × (σ → σ))} (taken : Taken members named puts) :
    ∀ p ∈ puts, p.1 ∈ members := by
  induction taken with
  | nil => exact fun p mem => absurd mem List.not_mem_nil
  | listed mem _ _ ih =>
    intro p later
    rcases List.mem_cons.mp later with rfl | later
    · exact mem
    · exact ih p later
  | other _ _ _ ih => exact ih

/-- The draft after all that listed members put into it. -/
def fill (draft : σ) (puts : List (Member σ × (σ → σ))) : σ := puts.foldl (fun d p => p.2 d) draft

theorem readMembers_taken (lawful : shape.Lawful) {named : List (String × List Char)}
    {puts : List (Member σ × (σ → σ))} (taken : Taken shape.members named puts)
    (once : (puts.map fun p => p.1.name).Nodup) {draft : σ}
    (unset : ∀ p ∈ puts, p.1.isSet draft = false) {fresh : Bool} {s : List Char}
    (text : MembersText fresh named s) (rest : List Char) :
    readMembers shape.members fresh draft (s ++ rest) = .ok (fill draft puts, rest) := by
  induction taken generalizing fresh s draft with
  | nil =>
    cases text with
    | close blank =>
      rw [readMembers_eq, List.append_assoc]
      rw [List.singleton_append, nextKey_close blank]
      rfl
  | @listed m v put named puts mem takes others_taken ih =>
    obtain ⟨others, more, reads⟩ := text.next_key
    obtain ⟨t, b, blank, key, colon⟩ := reads rest
    obtain ⟨new, once⟩ := List.nodup_cons.mp once
    have put_there := takes b (others ++ rest) blank (more.breaks rest)
    have member : readMember shape.members m.name draft t = .ok (put draft, others ++ rest) := by
      rw [readMember, lawful.find mem]
      dsimp only
      rw [unset (m, put) List.mem_cons_self, if_neg (by decide), colon]
      dsimp only
      rw [put_there]
      rfl
    rw [readMembers_eq, key]
    dsimp only
    rw [member]
    refine ih once ?_ more
    -- the members that are still to come have other names, so that this one has not set them
    intro p later
    have listed := others_taken.listed_of_mem p later
    have other : p.1.name ≠ m.name := by
      intro same
      apply new
      show m.name ∈ puts.map fun p => p.1.name
      rw [← same]
      exact List.mem_map_of_mem later
    rw [lawful.sets m mem _ _ _ put_there p.1 listed, unset p (List.mem_cons_of_mem _ later)]
    simpa using other
  | @other name v named puts unlisted value _ ih =>
    obtain ⟨others, more, reads⟩ := text.next_key
    obtain ⟨t, b, blank, key, colon⟩ := reads rest
    have unknown : (shape.members.find? fun m => m.name == name) = none := by
      apply List.find?_eq_none.mpr
      intro m mem
      simpa using unlisted m mem
    have member : readMember shape.members name draft t = .ok (draft, others ++ rest) := by
      rw [readMember, unknown]
      dsimp only
      rw [colon]
      dsimp only
      rw [skipValue_append blank value (more.breaks rest)]
      rfl
    rw [readMembers_eq, key]
    dsimp only
    rw [member]
    exact ih once unset more

/-- An object is taken for what its listed members describe. -/
theorem takes_reader (lawful : shape.Lawful) {named : List (String × List Char)}
    {puts : List (Member σ × (σ → σ))} (taken : Taken shape.members named puts)
    (once : (puts.map fun p => p.1.name).Nodup) {v : List Char} (object : ObjectText named v)
    {a : α}
    (complete : shape.complete (fill shape.blank puts) = .ok a) : shape.reader.Takes v a := by
  intro b rest blank _
  obtain ⟨inside, rfl, text⟩ := object
  have unset : ∀ p ∈ puts, p.1.isSet shape.blank = false :=
    fun p mem => lawful.blank p.1 (taken.listed_of_mem p mem)
  have members := readMembers_taken lawful taken once unset text rest
  simp only [reader, List.cons_append, nextToken_object blank, readObject, members, complete]

/-! ## Faults -/

/-- What makes a structure's reader refuse an object, when some members have been read: a listed
member comes that the draft has already, or one that comes twice, or one that cannot be read. -/
def Faulty (draft : σ) (m : Member σ) (named : List (String × List Char)) : Prop :=
  (m.isSet draft = true ∧ m.name ∈ named.map Prod.fst) ∨ 2 ≤ (named.map Prod.fst).count m.name ∨
    ∃ v, (m.name, v) ∈ named ∧ m.value.Fails v

/-- A fault that is still to come stays when a member with another name is taken. -/
theorem Faulty.later {draft draft' : σ} {m : Member σ} {name : String} {v : List Char}
    {named : List (String × List Char)} (faulty : Faulty draft m ((name, v) :: named))
    (other : m.name ≠ name) (kept : m.isSet draft = true → m.isSet draft' = true) :
    Faulty draft' m named := by
  rcases faulty with ⟨set, again⟩ | twice | ⟨w, mem, fails⟩
  · exact .inl ⟨kept set, (List.mem_cons.mp again).resolve_left other⟩
  · rw [List.map_cons, List.count_cons_of_ne (Ne.symm other)] at twice
    exact .inr (.inl twice)
  · refine .inr (.inr ⟨w, (List.mem_cons.mp mem).resolve_left ?_, fails⟩)
    intro same
    exact other (Prod.mk.inj same).1

theorem readMembers_fails (lawful : shape.Lawful) {m : Member σ} (mem : m ∈ shape.members)
    {named : List (String × List Char)} (values : ∀ n ∈ named, ValueText n.2) {draft : σ}
    (faulty : Faulty draft m named) {fresh : Bool} {s : List Char}
    (text : MembersText fresh named s) (rest : List Char) :
    ∃ e, readMembers shape.members fresh draft (s ++ rest) = .error e := by
  induction named generalizing fresh s draft with
  | nil => simp [Faulty] at faulty
  | cons first named ih =>
    obtain ⟨name, v⟩ := first
    obtain ⟨others, more, reads⟩ := text.next_key
    obtain ⟨t, b, blank, key, colon⟩ := reads rest
    have value : ValueText v := values (name, v) List.mem_cons_self
    have skips := skipValue_append blank value (more.breaks rest)
    have later : ∀ draft', Faulty draft' m named →
        ∃ e, readMembers shape.members false draft' (others ++ rest) = .error e :=
      fun draft' faulty => ih (fun n mem => values n (List.mem_cons_of_mem _ mem)) faulty more
    rw [readMembers_eq, key]
    dsimp only
    cases member : readMember shape.members name draft t with
    | error e => exact ⟨e, rfl⟩
    | ok taken =>
      obtain ⟨draft', r⟩ := taken
      -- whether the value was read or skipped, the other members stand behind it
      obtain ⟨u, colon', skips'⟩ := readMember_exact lawful.exact member
      obtain rfl : _ = u := Except.ok.inj (colon.symm.trans colon')
      obtain rfl : others ++ rest = r := Except.ok.inj (skips.symm.trans skips')
      apply later
      obtain ⟨u', colon'', unlisted | listed⟩ := readMember_cases member
      · obtain ⟨unlisted, -, rfl⟩ := unlisted
        exact faulty.later (unlisted m mem) id
      · obtain ⟨m', mem', rfl, unset, put, value_read, rfl⟩ := listed
        obtain rfl : _ = u' := Except.ok.inj (colon.symm.trans colon'')
        have sets := lawful.sets m' mem' _ _ _ value_read m mem draft
        by_cases same : m = m'
        · subst same
          have set : m.isSet (put draft) = true := by simp [sets]
          rcases faulty with ⟨set', -⟩ | twice | ⟨w, at_name, fails⟩
          · rw [unset] at set'
            contradiction
          · -- it comes again
            rw [List.map_cons, List.count_cons_self] at twice
            exact .inl ⟨set, List.count_pos_iff.mp (by omega)⟩
          · rcases List.mem_cons.mp at_name with here | there
            · obtain ⟨-, rfl⟩ := Prod.mk.inj here
              obtain ⟨e, failed⟩ := fails b (others ++ rest) blank (more.breaks rest)
              rw [failed] at value_read
              contradiction
            · exact .inr (.inr ⟨w, there, fails⟩)
        · have other : m.name ≠ m'.name :=
            fun named => same (List.inj_on_of_nodup_map lawful.distinct mem mem' named)
          exact faulty.later other fun set => by simp [sets, set]

/-- An object is refused if a listed member comes twice in it or cannot be read, wherever it
stands and whatever stands around it. -/
theorem fails_reader (lawful : shape.Lawful) {named : List (String × List Char)}
    (values : ∀ n ∈ named, ValueText n.2) {m : Member σ} (mem : m ∈ shape.members)
    (fault : 2 ≤ (named.map Prod.fst).count m.name ∨ ∃ v, (m.name, v) ∈ named ∧ m.value.Fails v)
    {v : List Char} (object : ObjectText named v) : shape.reader.Fails v := by
  intro b rest blank _
  obtain ⟨inside, rfl, text⟩ := object
  have faulty : Faulty shape.blank m named := .inr fault
  obtain ⟨e, failed⟩ := readMembers_fails lawful mem values faulty text rest
  exact ⟨e, by simp only [reader, List.cons_append, nextToken_object blank, readObject, failed]⟩

end Shape

end DirWatch.Json
