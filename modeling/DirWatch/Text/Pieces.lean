/-!
# Pieces of a text

A text cut at every occurrence of one separator, and the pieces put back together. `glue_pieces`:
cutting and gluing gives the text back, so no character is lost.
-/

namespace DirWatch.Text

/-- Cuts a text at every `sep`; there is always one piece more than separators. -/
def pieces [DecidableEq α] (sep : α) : List α → List (List α)
  | [] => [[]]
  | c :: r =>
    if c = sep then [] :: pieces sep r
    else
      match pieces sep r with
      | [] => [[c]]
      | p :: ps => (c :: p) :: ps

/-- Joins pieces with a text between each two of them. -/
def glue (between : List α) : List (List α) → List α
  | [] => []
  | [p] => p
  | p :: q :: ps => p ++ between ++ glue between (q :: ps)

theorem pieces_ne_nil [DecidableEq α] (sep : α) (s : List α) : pieces sep s ≠ [] := by
  cases s with
  | nil => simp [pieces]
  | cons c r =>
    simp only [pieces]
    split
    · simp
    · split <;> simp

/-- Gluing the pieces with the separator gives the text that was cut. -/
theorem glue_pieces [DecidableEq α] (sep : α) (s : List α) : glue [sep] (pieces sep s) = s := by
  induction s with
  | nil => rfl
  | cons c r ih =>
    simp only [pieces]
    have some_piece := pieces_ne_nil sep r
    split
    · next h =>
      match hp : pieces sep r with
      | [] => exact absurd hp some_piece
      | p :: ps => rw [hp] at ih; simp [glue, ih, h]
    · match hp : pieces sep r with
      | [] => exact absurd hp some_piece
      | [p] => rw [hp] at ih; simpa [glue] using ih
      | p :: q :: ps => rw [hp] at ih; simpa [glue] using ih

end DirWatch.Text
