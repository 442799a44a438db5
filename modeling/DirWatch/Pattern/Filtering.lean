import DirWatch.Pattern.Basic
import DirWatch.Record.Basic

/-!
# Filtered changes

The changes of a buffer whose names a list of patterns admits.
-/

namespace DirWatch

/-- The changes that the first `count` bytes of a buffer report and the patterns admit. -/
def Record.decodeFiltered (buffer : Buffer) (count : Nat) (patterns : Patterns) : List Change :=
  ((Record.all buffer count).filter fun r => patterns.admits r.name).map Record.change

/-- Patterns look at nothing but the path of a change. -/
theorem Record.decodeFiltered_eq_filter (buffer : Buffer) (count : Nat) (patterns : Patterns) :
    Record.decodeFiltered buffer count patterns =
      (Record.decode buffer count).filter fun c => patterns.admits c.path := by
  simp only [Record.decodeFiltered, Record.decode, List.filter_map]
  rfl

end DirWatch
