import CommandDesk.Proofs.Hack.Box
import Mathlib.Data.List.Forall2

/-!
# Wrapping in a box loses nothing

Between the rule under the title and the last row a box has rows of the text only.
They fall into one group for each line of the text, in order. A group has as many
rows as its line takes, at least one, and their cells hold the line and spaces after
it (`exists_wraps_boxed`).
-/

namespace CommandDesk

namespace Injection

variable {line : List Char}

/-- A cell of the text in its frame. -/
def framed (cell : List Char) : List Char := ['│', ' '] ++ cell ++ [' ', ' ', ' ', '│']

/-- The row between the title and the text. -/
def divider : List Char := ['├'] ++ rule boxWidth ++ ['┤']

/-- The last row of a box. -/
def lastRow : List Char := ['╰'] ++ rule boxWidth ++ ['╯']

/-- The cells that a line is wrapped into: as many as it takes, and one for the empty line; all of
one width; and what is in them is the line and then spaces. -/
structure Wraps (line : List Char) (cells : List (List Char)) : Prop where
  count : cells.length = max 1 ((line.length + (cellWidth - 1)) / cellWidth)
  width : ∀ cell ∈ cells, cell.length = cellWidth
  holds : cells.flatten.take line.length = line
  rest : ∀ c ∈ cells.flatten.drop line.length, c = ' '

/-- The cells of a line, filled up. -/
def cellsOf (line : List Char) : List (List Char) :=
  (if line.isEmpty then [[]] else Text.chunks cellWidth line).map (Text.padRight cellWidth)

/-- The rows of a line are its cells in their frames. -/
theorem boxRows_eq (line : List Char) : boxRows line = (cellsOf line).map framed := by
  unfold boxRows cellsOf
  rw [List.map_map]
  rfl

theorem boxBody_eq (text : List Char) :
    boxBody text = (((Text.linesOf text).map cellsOf).flatten).map framed := by
  unfold boxBody
  rw [funext boxRows_eq, List.map_flatten, List.map_map]
  rfl

/-- What is in the cells of a line is the line and then spaces. -/
theorem flatten_cellsOf (line : List Char) :
    ∃ k, (cellsOf line).flatten = line ++ Text.spaces k := by
  unfold cellsOf
  split
  · rename_i hempty
    obtain rfl := List.isEmpty_iff.1 hempty
    exact ⟨cellWidth, rfl⟩
  · exact Text.flatten_padRight_chunks (by decide) line

/-- **A line is wrapped into its cells.** -/
theorem wraps_cellsOf (line : List Char) : Wraps line (cellsOf line) := by
  obtain ⟨k, hk⟩ := flatten_cellsOf line
  refine ⟨?_, fun cell hcell => ?_, ?_, fun c hc => ?_⟩
  · unfold cellsOf
    rw [List.length_map]
    split
    · rename_i hempty
      obtain rfl := List.isEmpty_iff.1 hempty
      rfl
    · rename_i hempty
      have hpos : 0 < line.length := List.length_pos_iff.2 fun h => hempty (h ▸ rfl)
      have hone : 1 ≤ (line.length + (cellWidth - 1)) / cellWidth :=
        (Nat.le_div_iff_mul_le (by decide)).2 (by omega)
      rw [Text.length_chunks (by decide), Nat.max_eq_right hone]
  · obtain ⟨chunk, hchunk, rfl⟩ := List.mem_map.1 hcell
    refine Text.length_padRight ?_
    split at hchunk
    · obtain rfl := List.mem_singleton.1 hchunk
      exact Nat.zero_le _
    · exact Text.length_le_of_mem_chunks (by decide) hchunk
  · rw [hk, List.take_left]
  · rw [hk, List.drop_left] at hc
    exact List.eq_of_mem_replicate hc

/-- **Wrapping in a box loses nothing**: between the title and the last row, a box holds every line
of the text in a group of rows, one group after the other, and nothing else. -/
theorem exists_wraps_boxed (title text : String) :
    ∃ groups : List (List (List Char)),
      Text.lines (boxed title text) =
        ((firstRow :: titleLines title.toList) ++
          [divider] ++ groups.flatten.map framed ++ [lastRow]).map String.ofList ∧
      List.Forall₂ Wraps (Text.linesOf text.toList) groups := by
  refine ⟨(Text.linesOf text.toList).map cellsOf, ?_, ?_⟩
  · rw [lines_boxed, rowsBelow, boxBody_eq]
    simp [divider, lastRow]
  · rw [List.forall₂_map_right_iff, List.forall₂_same]
    exact fun line _ => wraps_cellsOf line

end Injection

end CommandDesk
