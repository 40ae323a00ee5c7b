import CommandDesk.Text.Cut

/-!
# Splitting loses nothing

What `splitFirst?` returns is what stood before and after the first separator,
and it returns nothing exactly where there is none. A text falls into pieces at
every separator (`pieces_append_sep`), so the first piece ends at the first one,
and no piece holds any. What is left after an initial character is dropped ends
as the text does, and an initial part is a prefix of the list (`isInitial_iff`).
A character that is replaced is gone, and the others stay (`mem_replaceChar`).
-/

namespace CommandDesk

namespace Text

variable {sep c : Char} {s a b : List Char}

theorem splitFirst?_eq_none_iff : splitFirst? sep s = none ↔ sep ∉ s := by
  induction s with
  | nil => simp [splitFirst?]
  | cons c s ih =>
    unfold splitFirst?
    split
    · rename_i hc
      simp [hc]
    · rename_i hc
      rw [Option.map_eq_none_iff, ih, List.mem_cons, not_or]
      exact ⟨fun h => ⟨Ne.symm hc, h⟩, fun h => h.2⟩

/-- **The two parts and the separator between them are the text**, and the first part has no
separator. -/
theorem eq_append_of_splitFirst? (h : splitFirst? sep s = some (a, b)) :
    s = a ++ sep :: b ∧ sep ∉ a := by
  induction s generalizing a with
  | nil => cases h
  | cons c s ih =>
    unfold splitFirst? at h
    split at h
    · rename_i hc
      cases h
      rw [hc]
      exact ⟨rfl, List.not_mem_nil⟩
    · rename_i hc
      obtain ⟨⟨a', b'⟩, hrest, hparts⟩ := Option.map_eq_some_iff.1 h
      cases hparts
      obtain ⟨hs, hsep⟩ := ih hrest
      refine ⟨by rw [hs]; rfl, ?_⟩
      rw [List.mem_cons, not_or]
      exact ⟨Ne.symm hc, hsep⟩

/-- A text splits at its first separator. -/
theorem splitFirst?_append (h : sep ∉ a) : splitFirst? sep (a ++ sep :: b) = some (a, b) := by
  induction a with
  | nil => simp [splitFirst?]
  | cons c a ih =>
    rw [List.mem_cons, not_or] at h
    rw [List.cons_append, splitFirst?, if_neg (Ne.symm h.1), ih h.2]
    rfl

/-- A text without a separator is one piece. -/
theorem pieces_of_not_mem (h : sep ∉ s) : pieces sep s = [s] := by
  induction s with
  | nil => rfl
  | cons c s ih =>
    rw [List.mem_cons, not_or] at h
    rw [pieces, if_neg (Ne.symm h.1), ih h.2]

theorem pieces_ne_nil (sep : Char) (s : List Char) : pieces sep s ≠ [] := by
  cases s with
  | nil => exact List.cons_ne_nil _ _
  | cons c s =>
    unfold pieces
    split
    · exact List.cons_ne_nil _ _
    · split <;> exact List.cons_ne_nil _ _

/-- **A text falls into pieces at every separator.** -/
theorem pieces_append_sep (sep : Char) (a b : List Char) :
    pieces sep (a ++ sep :: b) = pieces sep a ++ pieces sep b := by
  induction a with
  | nil => simp [pieces]
  | cons c a ih =>
    obtain ⟨p, ps, hp⟩ := List.exists_cons_of_ne_nil (pieces_ne_nil sep a)
    rw [List.cons_append, pieces, pieces, ih]
    split
    · rfl
    · rw [hp]
      rfl

/-- The first piece ends at the first separator. -/
theorem pieces_append (h : sep ∉ a) : pieces sep (a ++ sep :: b) = a :: pieces sep b := by
  rw [pieces_append_sep, pieces_of_not_mem h, List.singleton_append]

theorem sep_not_mem_pieces (h : a ∈ pieces sep s) : sep ∉ a := by
  induction s generalizing a with
  | nil =>
    obtain rfl := List.mem_singleton.1 h
    exact List.not_mem_nil
  | cons c s ih =>
    obtain ⟨p, ps, hp⟩ := List.exists_cons_of_ne_nil (pieces_ne_nil sep s)
    rw [pieces] at h
    split at h
    · rcases List.mem_cons.1 h with rfl | h
      · exact List.not_mem_nil
      · exact ih h
    · rename_i hc
      rw [hp] at h ih
      rcases List.mem_cons.1 h with rfl | h
      · rw [List.mem_cons, not_or]
        exact ⟨Ne.symm hc, ih List.mem_cons_self⟩
      · exact ih (List.mem_cons_of_mem _ h)

/-- The pieces are those that a list is split into at an element. -/
theorem pieces_eq_splitOn (sep : Char) (s : List Char) : pieces sep s = s.splitOn sep := by
  induction s with
  | nil => exact (List.splitOn_nil sep).symm
  | cons c s ih =>
    obtain ⟨p, ps, hp⟩ := List.exists_cons_of_ne_nil (pieces_ne_nil sep s)
    rw [List.splitOn, List.splitOnP_cons_eq_if_modifyHead, ← List.splitOn, ← ih, pieces, hp]
    by_cases hc : c = sep <;> simp [hc]

/-- A character that is no separator stands in one of the pieces. -/
theorem exists_mem_pieces (sep : Char) (h : c ∈ s) : c = sep ∨ ∃ w ∈ pieces sep s, c ∈ w := by
  induction s with
  | nil => exact absurd h List.not_mem_nil
  | cons d s ih =>
    obtain ⟨p, ps, hp⟩ := List.exists_cons_of_ne_nil (pieces_ne_nil sep s)
    by_cases hd : d = sep
    · rw [pieces, if_pos hd]
      rcases List.mem_cons.1 h with rfl | h
      · exact .inl hd
      · exact (ih h).imp_right fun ⟨w, hw, hc⟩ => ⟨w, List.mem_cons_of_mem _ hw, hc⟩
    · -- the character joins the first of the pieces that follow
      rw [pieces, if_neg hd]
      simp only [hp] at ih ⊢
      rcases List.mem_cons.1 h with rfl | h
      · exact .inr ⟨c :: p, List.mem_cons_self, List.mem_cons_self⟩
      · refine (ih h).imp_right fun ⟨w, hw, hc⟩ => ?_
        rcases List.mem_cons.1 hw with rfl | hw
        · exact ⟨d :: w, List.mem_cons_self, List.mem_cons_of_mem _ hc⟩
        · exact ⟨w, List.mem_cons_of_mem _ hw, hc⟩

/-- Dropping an initial character leaves the end of a text as it is. -/
theorem dropInitial_suffix (c : Char) (s : List Char) : dropInitial c s <:+ s := by
  cases s with
  | nil => exact List.suffix_refl _
  | cons d s =>
    rw [dropInitial]
    split
    · exact List.suffix_cons d s
    · exact List.suffix_refl _

theorem isInitial_iff : isInitial a b = true ↔ a <+: b := by
  induction a generalizing b with
  | nil => simp [isInitial]
  | cons c a ih =>
    cases b with
    | nil => simp [isInitial]
    | cons d b => simp [isInitial, ih, List.cons_prefix_cons]

/-! ## Replacing a character -/

theorem mem_replaceChar {d e : Char} {t : String} :
    c ∈ (replaceChar d e t).toList ↔ ∃ b ∈ t.toList, (if b = d then e else b) = c := by
  unfold replaceChar
  rw [String.toList_ofList, List.mem_map]

/-- A character that is replaced by another one is gone. -/
theorem not_mem_replaceChar {d e : Char} (h : d ≠ e) (t : String) :
    d ∉ (replaceChar d e t).toList := by
  intro hd
  obtain ⟨b, -, hb⟩ := mem_replaceChar.1 hd
  split at hb
  · exact h hb.symm
  · contradiction

theorem replaceChar_eq_self {d e : Char} {t : String} (h : d ∉ t.toList) :
    replaceChar d e t = t := by
  apply String.toList_inj.1
  unfold replaceChar
  rw [String.toList_ofList]
  refine (List.map_congr_left fun b hb => ?_).trans (List.map_id _)
  exact if_neg fun hbd : b = d => h (hbd ▸ hb)

end Text

end CommandDesk
