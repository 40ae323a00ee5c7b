import CommandDesk.Proofs.Synonym.Closeness
import CommandDesk.Proofs.Synonym.Weight

/-!
# What a synonym adds to a score

Over exact grades. One more synonym, or one of greater weight, is one more chance
for a verb to resemble something: every score against the command is kept or
improved (`score_le_score_add`). The synonym itself is the exception, since a verb
that is a synonym scores its weight, be that less than what it scored by
resemblance before. The scores against other commands stay as they are
(`score_add_of_ne`).
-/

namespace CommandDesk

namespace Score

variable {verb key : String} {w : Rat} {t : Synonyms Rat}

/-- Where every synonym has one that is no less close, the best score is no less. -/
theorem guessIn_le {es es' : List (String × Rat)} (hw : ∀ e ∈ es, 0 ≤ e.2)
    (hw' : ∀ e ∈ es', 0 ≤ e.2)
    (h : ∀ e ∈ es, ∃ e' ∈ es', closeness verb e ≤ closeness verb e') :
    guessIn verb es ≤ guessIn verb es' := by
  by_cases hes : es = []
  · subst hes
    rw [guessIn_nil]
    exact guessIn_nonneg verb es'
  · obtain ⟨⟨e, he, hbest⟩, -⟩ := isGreatest_guessIn verb hes hw
    obtain ⟨e', he', hle⟩ := h e he
    have hes' : es' ≠ [] := List.ne_nil_of_mem he'
    rw [← hbest]
    exact hle.trans ((isGreatest_guessIn verb hes' hw').2 ⟨e', he', rfl⟩)

/-- A synonym keeps its score when another one is set. -/
theorem ofVerb_insert_of_get?_eq_some {α : Type} [Grade α] {t : Synonyms α} {x : α}
    (hget : t.get? (Text.normalize verb) = some x) (hne : Text.normalize verb ≠ key) (w : α)
    (fuzzy : Bool) : ofVerb fuzzy verb (t.insert key w) = ofVerb fuzzy verb t := by
  have hnormal := Text.normalize_normalize verb
  have hafter : (t.insert key w).get? (Text.normalize verb) = some x := by
    rw [Table.get?_insert, if_neg hne, hget]
  rw [← ofVerb_normalize, ofVerb_of_get?_eq_some hnormal hafter, ← ofVerb_normalize,
    ofVerb_of_get?_eq_some hnormal hget]

/-- **Another synonym takes nothing from a score**, if its weight is none of the command's or is not
lowered. -/
theorem ofVerb_le_insert (hne : Text.normalize verb ≠ key) (hw : 0 ≤ w)
    (hweights : ∀ e ∈ t.entries, 0 ≤ e.2) (hraised : ∀ x, t.get? key = some x → x ≤ w)
    (fuzzy : Bool) : ofVerb fuzzy verb t ≤ ofVerb fuzzy verb (t.insert key w) := by
  have hnormal := Text.normalize_normalize verb
  cases hget : t.get? (Text.normalize verb) with
  | some x => rw [ofVerb_insert_of_get?_eq_some hget hne]
  | none =>
    have hafter : (t.insert key w).get? (Text.normalize verb) = none := by
      rw [Table.get?_insert, if_neg hne, hget]
    rw [← ofVerb_normalize, ofVerb_of_get?_eq_none hnormal hget,
      ← ofVerb_normalize _ _ (t.insert _ _), ofVerb_of_get?_eq_none hnormal hafter]
    split_ifs
    · refine guessIn_le hweights ?_ ?_
      · intro e he
        rcases Table.mem_insert he with rfl | he
        · exact hw
        · exact hweights e he
      · intro e he
        have hfound : t.get? e.1 = some e.2 := Table.get?_eq_some_iff.2 he
        by_cases hkey : e.1 = key
        · -- the synonym was there before, with a weight that is not lowered
          refine ⟨(key, w), Table.get?_eq_some_iff.1 ?_, ?_⟩
          · rw [Table.get?_insert, if_pos rfl]
          · rw [hkey] at hfound
            rw [← hkey]
            exact closeness_mono _ _ (hraised e.2 hfound)
        · refine ⟨e, Table.get?_eq_some_iff.1 ?_, le_refl _⟩
          rw [Table.get?_insert, if_neg hkey, hfound]
    · exact le_refl _

end Score

namespace Vocabulary

section

variable {α : Type} [Grade α]

/-- The score of a verb against a command. One that is not listed has no synonyms. -/
def score (v : Vocabulary α) (fuzzy : Bool) (verb command : String) : α :=
  Score.ofVerb fuzzy verb ((v.get? command).getD .empty)

variable {v : Vocabulary α} {command c synonym verb : String} {w x : α}

/-- The scores against other commands stay as they are. -/
theorem score_add_of_ne (h : c ≠ command) (fuzzy : Bool) :
    (v.add command synonym w).score fuzzy verb c = v.score fuzzy verb c := by
  unfold score add
  rw [get?_update, if_neg h]

theorem score_add_self (fuzzy : Bool) :
    (v.add command synonym w).score fuzzy verb command =
      Score.ofVerb fuzzy verb
        (((v.get? command).getD .empty).insert (Text.normalize synonym) (Grade.clamp w)) := by
  unfold score add
  rw [get?_update, if_pos rfl]
  rfl

/-- Another synonym of the command keeps its score. -/
theorem score_add_of_weight? (hweight : v.weight? command (Text.normalize verb) = some x)
    (hne : Text.normalize verb ≠ Text.normalize synonym) (fuzzy : Bool) :
    (v.add command synonym w).score fuzzy verb command = v.score fuzzy verb command := by
  rw [← get?_getD_empty] at hweight
  rw [score_add_self]
  exact Score.ofVerb_insert_of_get?_eq_some hweight hne (Grade.clamp w) fuzzy

end

variable {v : Vocabulary Rat} {command synonym verb : String} {w : Rat}

/-- No weight of a command is negative, listed or not. -/
theorem Sound.weights_nonneg (h : v.Sound) (command : String) :
    ∀ e ∈ ((v.get? command).getD .empty).entries, 0 ≤ e.2 := by
  intro e he
  cases hget : v.get? command with
  | none =>
    rw [hget] at he
    exact absurd he List.not_mem_nil
  | some t =>
    rw [hget] at he
    obtain ⟨g, hg, rfl⟩ := Option.map_eq_some_iff.1 hget
    exact (h.weight_bounds (List.mem_of_find?_eq_some hg) he).1

/-- **Any other verb scores as much as before, or more.** -/
theorem score_le_score_add (hsound : v.Sound)
    (hraised : ∀ x, v.weight? command (Text.normalize synonym) = some x → x ≤ Grade.clamp w)
    (hne : Text.normalize verb ≠ Text.normalize synonym) (fuzzy : Bool) :
    v.score fuzzy verb command ≤ (v.add command synonym w).score fuzzy verb command := by
  rw [score_add_self]
  refine Score.ofVerb_le_insert hne (Grade.clamp_nonneg w) (hsound.weights_nonneg command) ?_ fuzzy
  intro x hx
  rw [get?_getD_empty] at hx
  exact hraised x hx

/-- A verb that becomes a synonym itself can lose: it scores the weight, not the resemblance. -/
example :
    let v : Vocabulary Rat := ofEdits [.add "list-files" "list" 90]
    v.score true "lis" "list-files" = 47.25 ∧
      (v.add "list-files" "lis" 40).score true "lis" "list-files" = 40 := by
  decide +kernel

end Vocabulary

end CommandDesk
