import CommandDesk.Proofs.Text.Normal
import CommandDesk.Text.Blank

/-!
# The words of a text

A word is not empty and has no blank in it. Words that are written one after the
other, with a space between them, are read as those words
(`words_append_spaced`), and whatever is read from a text is a word
(`isWord_of_mem_words`).
-/

namespace CommandDesk

namespace Text

/-- A text that is one word. -/
structure IsWord (s : String) : Prop where
  ne_empty : s ≠ ""
  not_blank : ∀ c ∈ s.toList, isBlank c = false

theorem isWord_iff {s : String} :
    IsWord s ↔ s ≠ "" ∧ s.toList.all (fun c => !isBlank c) = true := by
  simp only [List.all_eq_true, Bool.not_eq_true']
  exact ⟨fun h => ⟨h.ne_empty, h.not_blank⟩, fun h => ⟨h.1, h.2⟩⟩

instance (s : String) : Decidable (IsWord s) := decidable_of_iff _ isWord_iff.symm

/-- There is nothing to trim from a word. -/
theorem IsWord.trim_eq {s : String} (h : IsWord s) : trim s = s := by
  have hend : Trimmed s.toList :=
    ⟨fun d hd => h.not_blank d (List.mem_of_head? hd),
      fun d hd => h.not_blank d (List.mem_of_getLast? hd)⟩
  unfold trim
  rw [trimChars_eq_self hend, String.ofList_toList]

/-- Words with a space before each of them. -/
def spaced (ws : List String) : String := String.join (ws.map (" " ++ ·))

variable {a s w : List Char} {b c : Char}

/-! ## Pieces between blanks -/

/-- Characters without a blank among them are one piece. -/
theorem blankPieces_of_not_blank (h : ∀ c ∈ s, isBlank c = false) : blankPieces s = [s] := by
  induction s with
  | nil => rfl
  | cons c s ih =>
    obtain ⟨hc, hs⟩ := List.forall_mem_cons.1 h
    rw [blankPieces, hc, ih hs]
    rfl

/-- The first piece ends at the first blank. -/
theorem blankPieces_append (h : ∀ c ∈ a, isBlank c = false) (hb : isBlank b = true) :
    blankPieces (a ++ b :: s) = a :: blankPieces s := by
  induction a with
  | nil => simp [blankPieces, hb]
  | cons c a ih =>
    obtain ⟨hc, ha⟩ := List.forall_mem_cons.1 h
    rw [List.cons_append, blankPieces, hc, ih ha]
    rfl

/-- No blank is left in a piece. -/
theorem not_blank_of_mem_blankPieces (hw : w ∈ blankPieces s) (hc : c ∈ w) :
    isBlank c = false := by
  induction s generalizing w with
  | nil =>
    rw [List.mem_singleton.1 hw] at hc
    exact absurd hc List.not_mem_nil
  | cons d s ih =>
    unfold blankPieces at hw
    split at hw
    · rcases List.mem_cons.1 hw with rfl | hw
      · exact absurd hc List.not_mem_nil
      · exact ih hw hc
    · rename_i hd
      have hd : isBlank d = false := by simpa using hd
      -- the character begins the first piece, and the others stay as they are
      split at hw
      · obtain rfl : w = [d] := List.mem_singleton.1 hw
        rwa [List.mem_singleton.1 hc]
      · rename_i p ps hps
        rw [hps] at ih
        rcases List.mem_cons.1 hw with rfl | hw
        · rcases List.mem_cons.1 hc with rfl | hc
          · exact hd
          · exact ih List.mem_cons_self hc
        · exact ih (List.mem_cons_of_mem _ hw) hc

/-! ## Words -/

variable {t u : String}

/-- **Whatever is read from a text is a word.** -/
theorem isWord_of_mem_words (h : u ∈ words t) : IsWord u := by
  obtain ⟨w, hw, rfl⟩ := List.mem_map.1 h
  obtain ⟨hpiece, hempty⟩ := List.mem_filter.1 hw
  refine ⟨?_, ?_⟩
  · intro hnil
    have hw : w = [] := by simpa using hnil
    rw [hw] at hempty
    cases hempty
  · intro c hc
    rw [String.toList_ofList] at hc
    exact not_blank_of_mem_blankPieces hpiece hc

/-- A text that does not begin with a blank has a word. -/
theorem words_ne_nil (h : t.toList.head? = some c) (hc : isBlank c = false) : words t ≠ [] := by
  obtain ⟨s, hs⟩ := List.head?_eq_some_iff.1 h
  -- the character begins a piece, which is thus not empty
  have hpiece : ∃ p ps, blankPieces t.toList = (c :: p) :: ps := by
    rw [hs, blankPieces, hc, if_neg Bool.false_ne_true]
    split
    · exact ⟨[], [], rfl⟩
    · exact ⟨_, _, rfl⟩
  obtain ⟨p, ps, hp⟩ := hpiece
  unfold words
  rw [hp]
  simp

/-- A word stays one when characters without a blank follow it. -/
theorem IsWord.append (h : IsWord t) (hu : ∀ c ∈ u.toList, isBlank c = false) :
    IsWord (t ++ u) := by
  refine ⟨?_, fun c hc => ?_⟩
  · intro hnil
    have hlist : t.toList ++ u.toList = [] := by rw [← String.toList_append, hnil]; rfl
    exact h.ne_empty (String.toList_eq_nil_iff.1 (List.append_eq_nil_iff.1 hlist).1)
  · rw [String.toList_append, List.mem_append] at hc
    exact hc.elim (h.not_blank c) (hu c)

/-- A word is read as itself. -/
theorem words_of_isWord (h : IsWord u) : words u = [u] := by
  have hne : u.toList ≠ [] := by simpa using h.ne_empty
  unfold words
  rw [blankPieces_of_not_blank h.not_blank]
  simp [hne]

/-- A word before a space is read first. -/
theorem words_append (h : IsWord u) : words (u ++ (" " ++ t)) = u :: words t := by
  have hne : u.toList ≠ [] := by simpa using h.ne_empty
  have hpieces : blankPieces (u ++ (" " ++ t)).toList = u.toList :: blankPieces t.toList := by
    rw [String.toList_append, String.toList_append]
    exact blankPieces_append h.not_blank (by decide)
  unfold words
  rw [hpieces]
  simp [hne]

/-- **Words with a space between them** are read as they were written. -/
theorem words_append_spaced {ws : List String} (h : IsWord u) (hws : ∀ v ∈ ws, IsWord v) :
    words (u ++ spaced ws) = u :: ws := by
  induction ws generalizing u with
  | nil =>
    have hnone : u ++ spaced [] = u := by simp [spaced]
    rw [hnone, words_of_isWord h]
  | cons v ws ih =>
    obtain ⟨hv, hws⟩ := List.forall_mem_cons.1 hws
    have hsplit : u ++ spaced (v :: ws) = u ++ (" " ++ (v ++ spaced ws)) := by
      simp [spaced, String.append_assoc]
    rw [hsplit, words_append h, ih hv hws]

end Text

end CommandDesk
