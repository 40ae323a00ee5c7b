import CommandDesk.Proofs.Synonym.Edits
import CommandDesk.Proofs.Text.Normal
import CommandDesk.Synonym.Score
import Mathlib.Algebra.Order.Field.Rat
import Mathlib.Tactic.Linarith
import Mathlib.Tactic.NormNum

/-!
# How high a guess scores

Over exact grades. A resemblance to a synonym scores at most seven tenths of
the synonym's weight, and a weight is at most a hundred; so a guess, the best
of them, scores at most seventy (`guess_le`).
-/

namespace CommandDesk

namespace Grade

theorem clamp_nonneg (w : Rat) : 0 ≤ clamp w := by
  have hnumber : isNumber w = true := rfl
  unfold clamp
  rw [hnumber]
  split_ifs with h hlow hhigh
  · exact absurd h Bool.false_ne_true
  · norm_num
  · norm_num
  · linarith

theorem clamp_le (w : Rat) : clamp w ≤ 100 := by
  have hnumber : isNumber w = true := rfl
  unfold clamp
  rw [hnumber]
  split_ifs with h hlow hhigh
  · exact absurd h Bool.false_ne_true
  · norm_num
  · norm_num
  · linarith

/-- The largest is the grade to start with or one of the others. -/
theorem foldl_larger_mem {α : Type} [Grade α] (a : α) (xs : List α) :
    xs.foldl larger a ∈ a :: xs := by
  induction xs generalizing a with
  | nil => exact List.mem_cons_self
  | cons x xs ih =>
    have hlarger : larger a x = a ∨ larger a x = x := by
      unfold larger
      split
      · exact .inr rfl
      · exact .inl rfl
    rw [List.foldl_cons]
    rcases hlarger with h | h
    · rw [h]
      rcases List.mem_cons.1 (ih a) with h | h
      · exact List.mem_cons.2 (.inl h)
      · exact List.mem_cons_of_mem _ (List.mem_cons_of_mem _ h)
    · rw [h]
      exact List.mem_cons_of_mem _ (ih x)

theorem foldl_larger_le {bound a : Rat} {xs : List Rat} (ha : a ≤ bound)
    (h : ∀ x ∈ xs, x ≤ bound) : xs.foldl larger a ≤ bound := by
  rcases List.mem_cons.1 (foldl_larger_mem a xs) with hmem | hmem
  · rw [hmem]
    exact ha
  · exact h _ hmem

/-- None of them is larger. -/
theorem le_foldl_larger {a x : Rat} {xs : List Rat} (hx : x ∈ a :: xs) : x ≤ xs.foldl larger a := by
  have hlarger : ∀ a b : Rat, a ≤ larger a b ∧ b ≤ larger a b := by
    intro a b
    unfold larger
    split
    · exact ⟨le_of_lt ‹_›, le_refl b⟩
    · exact ⟨le_refl a, not_lt.1 ‹_›⟩
  induction xs generalizing a x with
  | nil => exact le_of_eq (List.mem_singleton.1 hx)
  | cons y ys ih =>
    rw [List.foldl_cons]
    rcases List.mem_cons.1 hx with rfl | hx
    · exact (hlarger x y).1.trans (ih List.mem_cons_self)
    · rcases List.mem_cons.1 hx with rfl | hx
      · exact (hlarger a x).2.trans (ih List.mem_cons_self)
      · exact ih (List.mem_cons_of_mem _ hx)

end Grade

/-- Weights that edits put into a vocabulary are between zero and a hundred. -/
theorem Vocabulary.Sound.weight_bounds {v : Vocabulary Rat} (h : v.Sound) {g : Group Rat}
    (hg : g ∈ v.groups) {e : String × Rat} (he : e ∈ g.synonyms.entries) :
    0 ≤ e.2 ∧ e.2 ≤ 100 := by
  obtain ⟨w, hw⟩ := (h.settled g hg e he).clamped
  rw [hw]
  exact ⟨Grade.clamp_nonneg w, Grade.clamp_le w⟩

namespace Score

section

variable {α : Type} [Grade α] {verb : String} {synonyms : Synonyms α}

/-- The score is that of the normal form. -/
theorem ofVerb_normalize (fuzzy : Bool) (verb : String) (synonyms : Synonyms α) :
    ofVerb fuzzy (Text.normalize verb) synonyms = ofVerb fuzzy verb synonyms := by
  unfold ofVerb
  rw [Text.normalize_normalize]

/-- A synonym scores its weight. -/
theorem ofVerb_of_get?_eq_some {w : α} (hverb : Text.normalize verb = verb)
    (h : synonyms.get? verb = some w) (fuzzy : Bool) : ofVerb fuzzy verb synonyms = w := by
  unfold ofVerb
  simp only [hverb, h]

/-- Any other verb scores by resemblance, or nothing. -/
theorem ofVerb_of_get?_eq_none (hverb : Text.normalize verb = verb)
    (h : synonyms.get? verb = none) (fuzzy : Bool) :
    ofVerb fuzzy verb synonyms = if fuzzy then guess verb synonyms else 0.0 := by
  unfold ofVerb
  simp only [hverb, h]

end

variable {verb synonym : List Char} {w x : Rat}

/-- The shorter of two texts covers no more than the longer. -/
theorem share_le_one (m n : Nat) : ((min m n : Nat) : Rat) / ((max m n : Nat) : Rat) ≤ 1 := by
  have hle : ((min m n : Nat) : Rat) ≤ ((max m n : Nat) : Rat) := by exact_mod_cast min_le_max
  exact div_le_one_of_le₀ hle (Nat.cast_nonneg _)

theorem le_of_mem_byInitial (hw : 0 ≤ w) (h : x ∈ byInitial verb synonym w) : x ≤ w * 0.7 := by
  unfold byInitial at h
  split at h
  · have hx : x = w * (((min verb.length synonym.length : Nat) : Rat) /
        ((max verb.length synonym.length : Nat) : Rat)) * 0.7 := List.mem_singleton.1 h
    have hshare := share_le_one verb.length synonym.length
    rw [hx]
    have hcovered := mul_le_of_le_one_right hw hshare
    linarith
  · exact absurd h List.not_mem_nil

/-- Edits leave at most the whole text. -/
theorem similarity_le_one (verb synonym : List Char) : similarity verb synonym ≤ (1 : Rat) := by
  have hs : similarity verb synonym = (1.0 : Rat) - ((Distance.ofChars verb synonym : Nat) : Rat) /
      ((max verb.length synonym.length : Nat) : Rat) := rfl
  have hedited : 0 ≤ ((Distance.ofChars verb synonym : Nat) : Rat) /
      ((max verb.length synonym.length : Nat) : Rat) :=
    div_nonneg (Nat.cast_nonneg _) (Nat.cast_nonneg _)
  rw [hs]
  linarith

theorem le_of_mem_byEdits (hw : 0 ≤ w) (h : x ∈ byEdits verb synonym w) : x ≤ w * 0.7 := by
  unfold byEdits at h
  dsimp only at h
  split at h
  · have hx : x = w * similarity verb synonym * 0.6 := List.mem_singleton.1 h
    have hleft := mul_le_of_le_one_right hw (similarity_le_one verb synonym)
    rw [hx]
    linarith
  · exact absurd h List.not_mem_nil

/-- **A resemblance scores at most seven tenths of the weight.** -/
theorem le_of_mem_resemblances {e : String × Rat} (hw : 0 ≤ e.2)
    (h : x ∈ resemblances verb e) : x ≤ e.2 * 0.7 := by
  unfold resemblances at h
  split at h
  · exact absurd h List.not_mem_nil
  · rcases List.mem_append.1 h with h | h
    · exact le_of_mem_byInitial hw h
    · exact le_of_mem_byEdits hw h

/-- **A guess scores at most seventy** where weights are between zero and a hundred. -/
theorem guess_le {verb : String} {synonyms : Synonyms Rat}
    (h : ∀ e ∈ synonyms.entries, 0 ≤ e.2 ∧ e.2 ≤ 100) : guess verb synonyms ≤ 70 := by
  unfold guess
  refine Grade.foldl_larger_le (by norm_num) fun x hx => ?_
  obtain ⟨e, he, hx⟩ := List.mem_flatMap.1 hx
  obtain ⟨hlow, hhigh⟩ := h e he
  have hle := le_of_mem_resemblances hlow hx
  linarith

end Score

end CommandDesk
