import CommandDesk.Hack.Injection
import CommandDesk.Proofs.Text.Lines

/-!
# The width of a box

A box is drawn in rows of one width: the rules, the rows of the text, and the
title, if it fits. The text is cut to the width of its cells, whatever it is. The
title is filled up to the width and never cut, so a long title sticks out of the
box, and a title of several lines breaks it (`rectangular_boxed_iff`).
-/

namespace CommandDesk

namespace Injection

variable {title text line row : List Char}

/-- The width of a row of a box with its frame. -/
def rowWidth : Nat := boxWidth + 2

/-- The width of the title in a box. -/
def titleWidth : Nat := boxWidth - 2

/-- A row of a box: it has the width of the box, and is one line of the text. -/
structure IsBoxRow (row : List Char) : Prop where
  isRow : Text.IsRow row
  width : row.length = rowWidth

theorem isBoxRow_rule {left right : Char} (hleft : left ≠ '\n')
    (hright : right ≠ '\n' ∧ right ≠ '\r') :
    IsBoxRow ([left] ++ rule boxWidth ++ [right]) := by
  refine ⟨⟨?_, ?_, by simp⟩, ?_⟩
  · simp [rule, hleft.symm, hright.1.symm]
  · rw [List.getLast?_concat]
    simpa using hright.2
  · simp [rule, rowWidth]

/-! ## The text -/

/-- A cell that is no wider than the box makes a row of it. -/
theorem isBoxRow_cell {cell : List Char} (hone : '\n' ∉ cell) (hfits : cell.length ≤ cellWidth) :
    IsBoxRow (['│', ' '] ++ Text.padRight cellWidth cell ++ [' ', ' ', ' ', '│']) := by
  refine ⟨⟨?_, ?_, by simp⟩, ?_⟩
  · have hpadded : '\n' ∉ Text.padRight cellWidth cell := by
      rwa [Text.mem_padRight (by decide)]
    simp [hpadded]
  · rw [List.getLast?_append]
    simp
  · rw [List.length_append, List.length_append, Text.length_padRight hfits]
    rfl

/-- **Every row of the text has the width of the box**, and holds one line. -/
theorem isBoxRow_of_mem_boxBody (h : row ∈ boxBody text) : IsBoxRow row := by
  obtain ⟨line, hline, hrow⟩ := List.mem_flatMap.1 h
  obtain ⟨cell, hcell, rfl⟩ := List.mem_map.1 hrow
  have hone : '\n' ∉ line := Text.newline_not_mem_linesOf hline
  split at hcell
  · obtain rfl := List.mem_singleton.1 hcell
    exact isBoxRow_cell List.not_mem_nil (Nat.zero_le _)
  · exact isBoxRow_cell (fun hmem => hone (Text.mem_of_mem_chunks hcell hmem))
      (Text.length_le_of_mem_chunks (by decide) hcell)

/-! ## The title -/

/-- The row of a title, which may be too long for the box. -/
def titleRow (title : List Char) : List Char :=
  ['│', ' '] ++ Text.padCentre titleWidth title ++ [' ', '│']

/-- The lines that the row of a title is in the text of a box. -/
def titleLines (title : List Char) : List (List Char) :=
  (Text.pieces '\n' (titleRow title)).map Text.dropReturn

theorem length_titleRow (title : List Char) :
    (titleRow title).length = max rowWidth (title.length + 4) := by
  simp only [titleRow, List.length_append, Text.length_padCentre, List.length_cons,
    List.length_nil, rowWidth, titleWidth, boxWidth]
  omega

theorem newline_mem_titleRow : '\n' ∈ titleRow title ↔ '\n' ∈ title := by
  have hpadded := Text.mem_padCentre (c := '\n') (s := title) (n := titleWidth) (by decide)
  simp [titleRow, hpadded]

/-- A title without a line feed is in one line. -/
theorem titleLines_of_one (h : '\n' ∉ title) : titleLines title = [titleRow title] := by
  have hrow : Text.IsRow (titleRow title) := by
    refine ⟨fun hmem => h (newline_mem_titleRow.1 hmem), ?_, ?_⟩
    · rw [titleRow, List.getLast?_append]
      simp
    · simp [titleRow]
  exact hrow.map_dropReturn

/-- A title with a line feed that is not too long breaks off before the end of its row. -/
theorem exists_short_titleLine (h : '\n' ∈ title) (hfits : title.length ≤ titleWidth) :
    ∃ line ∈ titleLines title, line.length < rowWidth := by
  cases hsplit : Text.splitFirst? '\n' (titleRow title) with
  | none => exact absurd (newline_mem_titleRow.2 h) (Text.splitFirst?_eq_none_iff.1 hsplit)
  | some parts =>
    obtain ⟨before, after⟩ := parts
    obtain ⟨hrow, hone⟩ := Text.eq_append_of_splitFirst? hsplit
    refine ⟨Text.dropReturn before, ?_, ?_⟩
    · unfold titleLines
      rw [hrow, Text.pieces_append hone]
      exact List.mem_cons_self
    · have hlength := length_titleRow title
      rw [hrow, List.length_append, List.length_cons] at hlength
      have hdrop := (Text.dropReturn_sublist before).length_le
      simp only [titleWidth, boxWidth, rowWidth] at hfits hlength ⊢
      omega

/-- The lines of a title have the width of the box if and only if the title is in one line that
fits; for a title of several lines that is too long, this depends on where it breaks. -/
theorem titleLines_width_iff (h : '\n' ∉ title ∨ title.length ≤ titleWidth) :
    (∀ line ∈ titleLines title, line.length = rowWidth) ↔
      '\n' ∉ title ∧ title.length ≤ titleWidth := by
  by_cases hone : '\n' ∈ title
  · obtain ⟨line, hline, hshort⟩ :=
      exists_short_titleLine hone (h.resolve_left (not_not_intro hone))
    exact iff_of_false (fun hall => Nat.ne_of_lt hshort (hall line hline)) fun hfits =>
      hfits.1 hone
  · rw [titleLines_of_one hone, List.forall_mem_singleton, length_titleRow, and_iff_right hone]
    simp only [rowWidth, titleWidth, boxWidth]
    omega

/-! ## The box -/

/-- The first row of a box. -/
def firstRow : List Char := ['╭'] ++ rule boxWidth ++ ['╮']

/-- The rows of a box under its title. -/
def rowsBelow (text : List Char) : List (List Char) :=
  (['├'] ++ rule boxWidth ++ ['┤']) :: (boxBody text ++ [['╰'] ++ rule boxWidth ++ ['╯']])

theorem isBoxRow_firstRow : IsBoxRow firstRow := isBoxRow_rule (by decide) (by decide)

theorem isBoxRow_of_mem_rowsBelow (h : row ∈ rowsBelow text) : IsBoxRow row := by
  rcases List.mem_cons.1 h with rfl | h
  · exact isBoxRow_rule (by decide) (by decide)
  · rcases List.mem_append.1 h with h | h
    · exact isBoxRow_of_mem_boxBody h
    · obtain rfl := List.mem_singleton.1 h
      exact isBoxRow_rule (by decide) (by decide)

/-- **The lines of a box**: a rule, the lines of the title, and the rows below. -/
theorem lines_boxed (title text : String) :
    Text.lines (boxed title text) =
      (firstRow :: (titleLines title.toList ++ rowsBelow text.toList)).map String.ofList := by
  have hbelow : Text.linesOf (['\n'].intercalate (rowsBelow text.toList)) =
      rowsBelow text.toList :=
    Text.linesOf_intercalate fun row h => (isBoxRow_of_mem_rowsBelow h).isRow
  have hne : rowsBelow text.toList ≠ [] := List.cons_ne_nil _ _
  have hrows : (boxed title text).toList =
      ['\n'].intercalate (firstRow :: titleRow title.toList :: rowsBelow text.toList) :=
    Text.toList_joinLines _
  unfold Text.lines
  rw [hrows, Text.linesOf_intercalate_cons firstRow (List.cons_ne_nil _ _),
    isBoxRow_firstRow.isRow.map_dropReturn, Text.linesOf_intercalate_cons _ hne, hbelow]
  rfl

/-- The lines of a text all have the same width. -/
def Rectangular (s : String) : Prop :=
  ∀ a ∈ Text.lines s, ∀ b ∈ Text.lines s, a.length = b.length

/-- It is the title that decides on the shape of a box. -/
theorem rectangular_boxed (title text : String) :
    Rectangular (boxed title text) ↔ ∀ line ∈ titleLines title.toList, line.length = rowWidth := by
  unfold Rectangular
  rw [lines_boxed]
  constructor
  · intro h line hline
    have hsame := h (String.ofList line)
      (List.mem_map_of_mem (List.mem_cons_of_mem _ (List.mem_append_left _ hline)))
      (String.ofList firstRow) (List.mem_map_of_mem List.mem_cons_self)
    rwa [String.length_ofList, String.length_ofList, isBoxRow_firstRow.width] at hsame
  · intro h
    have hwidth : ∀ a ∈ (firstRow :: (titleLines title.toList ++ rowsBelow text.toList)).map
        String.ofList, a.length = rowWidth := by
      intro a ha
      obtain ⟨row, hrow, rfl⟩ := List.mem_map.1 ha
      rw [String.length_ofList]
      rcases List.mem_cons.1 hrow with rfl | hrow
      · exact isBoxRow_firstRow.width
      · rcases List.mem_append.1 hrow with hrow | hrow
        · exact h row hrow
        · exact (isBoxRow_of_mem_rowsBelow hrow).width
    exact fun a ha b hb => (hwidth a ha).trans (hwidth b hb).symm

/-- **The shape of a box**, for any hack, with or without its enhancement. The lines of its title
stand between the first row and the rows below, which all have one width. So the box is a rectangle
if and only if the lines of the title have that width, too. For a title without a line feed, or one
that is not too long, that is if and only if it is in one line and fits. -/
theorem rectangular_boxed_iff (h : Hack) (enhanced : Bool) :
    let box := block h .boxed enhanced
    let name := h.name.toList
    let below := rowsBelow (h.text enhanced).toList
    Text.lines box = (firstRow :: (titleLines name ++ below)).map String.ofList ∧
      (∀ row ∈ firstRow :: below, row.length = rowWidth) ∧
      (Rectangular box ↔ ∀ line ∈ titleLines name, line.length = rowWidth) ∧
      ('\n' ∉ name ∨ name.length ≤ titleWidth →
        (Rectangular box ↔ '\n' ∉ name ∧ name.length ≤ titleWidth)) := by
  intro box name below
  have hbox : Rectangular box ↔ ∀ line ∈ titleLines name, line.length = rowWidth :=
    rectangular_boxed h.name (h.text enhanced)
  refine ⟨lines_boxed h.name (h.text enhanced), fun row hrow => ?_, hbox,
    fun hname => hbox.trans (titleLines_width_iff hname)⟩
  rcases List.mem_cons.1 hrow with rfl | hrow
  · exact isBoxRow_firstRow.width
  · exact (isBoxRow_of_mem_rowsBelow hrow).width

/-- **A long title sticks out of its box.** -/
theorem not_rectangular_long_title :
    ¬ Rectangular (block
      { id := "plan", name := "Ask for a plan first, and for the risks of every step in it",
        milestone := 20, postscript := "Write a plan." } .boxed false) := by
  intro h
  have hwidth := (rectangular_boxed _ _).1 h
  have hfits := ((titleLines_width_iff (.inl (by decide +kernel))).1 hwidth).2
  exact absurd hfits (by decide +kernel)

end Injection

end CommandDesk
