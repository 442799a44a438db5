import DirWatch.Text.Pieces

/-!
# Cutting and gluing

What becomes of the pieces of a text when texts are put together, and what glued pieces look like.
Cutting glued pieces gives the pieces back, if the separator is in none of them (`pieces_glue`).
-/

namespace DirWatch.Text

variable {α : Type}

theorem glue_eq_intercalate (between : List α) (ps : List (List α)) :
    glue between ps = between.intercalate ps := by
  induction ps with
  | nil => rfl
  | cons p ps ih =>
    match ps with
    | [] => simp [glue]
    | q :: ps => rw [glue, ih, List.intercalate_cons_cons]

/-- Glued pieces are the first one and all others with the glue before them. -/
theorem glue_cons (between p : List α) (ps : List (List α)) :
    glue between (p :: ps) = p ++ ps.flatMap (between ++ ·) := by
  induction ps generalizing p with
  | nil => rw [glue, List.flatMap_nil, List.append_nil]
  | cons q ps ih => rw [glue, ih, List.flatMap_cons, List.append_assoc, List.append_assoc]

theorem mem_glue {between : List α} {ps : List (List α)} {a : α}
    (mem : a ∈ glue between ps) : a ∈ between ∨ ∃ p ∈ ps, a ∈ p := by
  induction ps with
  | nil => exact absurd mem List.not_mem_nil
  | cons p ps ih =>
    match ps with
    | [] => exact .inr ⟨p, List.mem_cons_self, mem⟩
    | q :: ps =>
      rw [glue, List.mem_append, List.mem_append] at mem
      rcases mem with (here | separator) | later
      · exact .inr ⟨p, List.mem_cons_self, here⟩
      · exact .inl separator
      · rcases ih later with separator | ⟨r, listed, there⟩
        · exact .inl separator
        · exact .inr ⟨r, List.mem_cons_of_mem _ listed, there⟩

variable [DecidableEq α] {sep : α}

theorem pieces_eq_splitOn (sep : α) (s : List α) : pieces sep s = s.splitOn sep := by
  induction s with
  | nil => rfl
  | cons c s ih =>
    rw [pieces, List.splitOn_cons_eq_if_modifyHead, ih]
    by_cases here : c = sep
    · rw [if_pos here, if_pos (beq_iff_eq.mpr here)]
    · rw [if_neg here, if_neg (by simpa using here)]
      cases cut : s.splitOn sep with
      | nil => exact absurd cut (List.splitOn_ne_nil sep s)
      | cons p ps => rfl

theorem pieces_of_whole {p : List α} (whole : sep ∉ p) : pieces sep p = [p] := by
  rw [pieces_eq_splitOn, List.splitOn_eq_singleton whole]

/-- The pieces of two texts with a separator between them are those of both. -/
theorem pieces_append_sep (p s : List α) :
    pieces sep (p ++ sep :: s) = pieces sep p ++ pieces sep s := by
  rw [pieces_eq_splitOn, pieces_eq_splitOn, pieces_eq_splitOn, List.splitOn_append_cons_self]

theorem pieces_append {p : List α} (whole : sep ∉ p) (s : List α) :
    pieces sep (p ++ sep :: s) = p :: pieces sep s := by
  rw [pieces_append_sep, pieces_of_whole whole]
  rfl

/-- A text with a separator behind its first piece tells this piece and all that follows. -/
theorem eq_of_append_sep {p q s t : List α} (whole : sep ∉ p) (whole' : sep ∉ q)
    (same : p ++ sep :: s = q ++ sep :: t) : p = q ∧ s = t := by
  have cut := congrArg (pieces sep) same
  rw [pieces_append whole, pieces_append whole'] at cut
  obtain rfl := (List.cons.inj cut).1
  exact ⟨rfl, (List.cons.inj (List.append_cancel_left same)).2⟩

/-- A text without separators becomes the front of the first piece. -/
theorem pieces_append_front {p s q : List α} {ps : List (List α)} (whole : sep ∉ p)
    (cut : pieces sep s = q :: ps) : pieces sep (p ++ s) = (p ++ q) :: ps := by
  induction p with
  | nil => exact cut
  | cons c p ih =>
    rw [List.mem_cons, not_or] at whole
    rw [List.cons_append, pieces, if_neg (Ne.symm whole.1), ih whole.2]
    rfl

/-- The separator is in no piece. -/
theorem not_mem_of_mem_pieces {s p : List α} (mem : p ∈ pieces sep s) : sep ∉ p := by
  induction s generalizing p with
  | nil =>
    rw [List.mem_singleton.mp mem]
    exact List.not_mem_nil
  | cons c s ih =>
    rw [pieces] at mem
    split at mem
    · rcases List.mem_cons.mp mem with rfl | later
      · exact List.not_mem_nil
      · exact ih later
    · next other =>
      cases cut : pieces sep s with
      | nil => exact absurd cut (pieces_ne_nil sep s)
      | cons q ps =>
        rw [cut] at mem ih
        rcases List.mem_cons.mp mem with rfl | later
        · rw [List.mem_cons, not_or]
          exact ⟨Ne.symm other, ih List.mem_cons_self⟩
        · exact ih (List.mem_cons_of_mem q later)

/-- Glued pieces are cut where they were glued. -/
theorem pieces_glue {ps : List (List α)} (whole : ∀ p ∈ ps, sep ∉ p) (some_piece : ps ≠ []) :
    pieces sep (glue [sep] ps) = ps := by
  rw [pieces_eq_splitOn, glue_eq_intercalate, List.splitOn_intercalate sep whole some_piece]

end DirWatch.Text
