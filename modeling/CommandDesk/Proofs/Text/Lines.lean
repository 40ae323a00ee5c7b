import CommandDesk.Proofs.Text.Split

/-!
# Lines and cells

Rows that hold no line feed and do not end in a carriage return are the lines of
the text that they are joined to (`linesOf_intercalate`). Cutting a line into
cells loses nothing (`flatten_chunks`), and a cell that is filled up has the width
that was asked for.
-/

namespace CommandDesk

namespace Text

variable {c : Char} {s a b : List Char} {n : Nat}

/-! ## Lines -/

theorem dropReturn_sublist (s : List Char) : (dropReturn s).Sublist s := by
  unfold dropReturn
  split
  · exact List.dropLast_sublist s
  · exact List.Sublist.refl s

theorem dropReturn_of_getLast? (h : s.getLast? ≠ some '\r') : dropReturn s = s := if_neg h

/-- The lines before a line feed do not depend on what follows it. -/
theorem linesOf_append (a b : List Char) :
    linesOf (a ++ '\n' :: b) = (pieces '\n' a).map dropReturn ++ linesOf b := by
  have hne := pieces_ne_nil '\n' b
  have hlast : (pieces '\n' a ++ pieces '\n' b).getLast? = (pieces '\n' b).getLast? := by
    rw [List.getLast?_append, List.getLast?_eq_some_getLast hne]
    rfl
  unfold linesOf
  dsimp only
  rw [pieces_append_sep, List.dropLast_append_of_ne_nil hne, hlast, List.map_append,
    List.append_assoc]

theorem newline_not_mem_linesOf (h : a ∈ linesOf s) : '\n' ∉ a := by
  rcases List.mem_append.1 h with h | h
  · obtain ⟨p, hp, rfl⟩ := List.mem_map.1 h
    exact fun hmem => sep_not_mem_pieces ((List.dropLast_sublist _).subset hp)
      ((dropReturn_sublist p).subset hmem)
  · split at h
    · cases h
    · obtain rfl := List.mem_singleton.1 h
      have hlast := List.getLast?_eq_some_getLast (pieces_ne_nil '\n' s)
      rw [hlast]
      exact sep_not_mem_pieces (List.getLast_mem _)

/-- A row of a text: it holds no line feed, and a line feed after it takes nothing along. -/
structure IsRow (s : List Char) : Prop where
  one : '\n' ∉ s
  closed : s.getLast? ≠ some '\r'
  ne_nil : s ≠ []

theorem IsRow.map_dropReturn (h : IsRow s) : (pieces '\n' s).map dropReturn = [s] := by
  rw [pieces_of_not_mem h.one, List.map_singleton, dropReturn_of_getLast? h.closed]

theorem IsRow.linesOf (h : IsRow s) : linesOf s = [s] := by
  unfold Text.linesOf
  rw [pieces_of_not_mem h.one]
  simp [h.ne_nil]

/-- A text that is joined to others keeps its own lines. -/
theorem linesOf_intercalate_cons {rows : List (List Char)} (s : List Char) (h : rows ≠ []) :
    linesOf (['\n'].intercalate (s :: rows)) =
      (pieces '\n' s).map dropReturn ++ linesOf (['\n'].intercalate rows) := by
  rw [List.intercalate_cons_of_ne_nil h, List.append_assoc, List.singleton_append, linesOf_append]

/-- **Rows that are joined are the lines of the text.** -/
theorem linesOf_intercalate {rows : List (List Char)} (h : ∀ r ∈ rows, IsRow r) :
    linesOf (['\n'].intercalate rows) = rows := by
  induction rows with
  | nil => rfl
  | cons r rows ih =>
    obtain ⟨hr, hrows⟩ := List.forall_mem_cons.1 h
    by_cases hne : rows = []
    · rw [hne, List.intercalate_singleton, hr.linesOf]
    · rw [linesOf_intercalate_cons r hne, hr.map_dropReturn, ih hrows, List.singleton_append]

theorem toList_joinLines (rows : List (List Char)) :
    (joinLines (rows.map String.ofList)).toList = ['\n'].intercalate rows := by
  have hid : String.toList ∘ String.ofList = id := funext fun _ => String.toList_ofList
  unfold joinLines
  rw [String.toList_intercalate, List.map_map, hid, List.map_id]
  rfl

/-! ## Cells -/

/-- **Cutting into cells loses nothing.** -/
theorem flatten_chunks (n : Nat) (s : List Char) : (chunks n s).flatten = s := by
  fun_induction chunks n s with
  | case1 => rfl
  | case2 c s ih => rw [List.flatten_cons, ih, List.cons_append, List.take_append_drop]

theorem length_le_of_mem_chunks (hn : 0 < n) (h : a ∈ chunks n s) : a.length ≤ n := by
  fun_induction chunks n s with
  | case1 => cases h
  | case2 c s ih =>
    rcases List.mem_cons.1 h with rfl | h
    · rw [List.length_cons, List.length_take]
      omega
    · exact ih h

theorem mem_of_mem_chunks (h : a ∈ chunks n s) (hc : c ∈ a) : c ∈ s := by
  rw [← flatten_chunks n s]
  exact List.mem_flatten_of_mem h hc

/-- There are as many cells as the line takes. -/
theorem length_chunks (hn : 0 < n) (s : List Char) :
    (chunks n s).length = (s.length + (n - 1)) / n := by
  fun_induction chunks n s with
  | case1 => exact (Nat.div_eq_of_lt (by rw [List.length_nil]; omega)).symm
  | case2 c s ih =>
    have hgoal : (c :: s).length + (n - 1) = s.length + n := by
      rw [List.length_cons]
      omega
    rw [List.length_cons, ih, List.length_drop, hgoal, Nat.add_div_right _ hn]
    congr 1
    by_cases hs : n - 1 ≤ s.length
    · rw [Nat.sub_add_cancel hs]
    · rw [Nat.div_eq_of_lt (by omega), Nat.div_eq_of_lt (by omega)]

/-! ## Padding -/

theorem padRight_of_length (h : s.length = n) : padRight n s = s := by
  simp [padRight, spaces, h]

theorem length_padRight (h : s.length ≤ n) : (padRight n s).length = n := by
  simp only [padRight, spaces, List.length_append, List.length_replicate]
  omega

theorem length_padCentre (n : Nat) (s : List Char) :
    (padCentre n s).length = max n s.length := by
  simp only [padCentre, spaces, List.length_append, List.length_replicate]
  omega

theorem mem_padRight (hc : c ≠ ' ') : c ∈ padRight n s ↔ c ∈ s := by
  simp [padRight, spaces, hc]

/-- **Filling the cells up** adds nothing but spaces, and these to the end of the line. -/
theorem flatten_padRight_chunks (hn : 0 < n) (s : List Char) :
    ∃ k, ((chunks n s).map (padRight n)).flatten = s ++ spaces k := by
  fun_induction chunks n s with
  | case1 => exact ⟨0, rfl⟩
  | case2 c s ih =>
    obtain ⟨k, hk⟩ := ih
    rw [List.map_cons, List.flatten_cons]
    by_cases hs : n - 1 ≤ s.length
    · -- the first cell is full
      have hfull : (c :: s.take (n - 1)).length = n := by
        rw [List.length_cons, List.length_take]
        omega
      refine ⟨k, ?_⟩
      rw [padRight_of_length hfull, hk, List.cons_append, ← List.append_assoc,
        List.take_append_drop, List.cons_append]
    · -- the first cell is the last one
      have hle : s.length ≤ n - 1 := by omega
      refine ⟨n - (c :: s).length, ?_⟩
      rw [List.drop_eq_nil_of_le hle, List.take_of_length_le hle, chunks, List.map_nil,
        List.flatten_nil, List.append_nil]
      rfl

theorem mem_padCentre (hc : c ≠ ' ') : c ∈ padCentre n s ↔ c ∈ s := by
  simp [padCentre, spaces, hc]

end Text

end CommandDesk
