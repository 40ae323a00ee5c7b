import CommandDesk.Proofs.Grade.FloatRank
import CommandDesk.Proofs.Mapping.Reference
import CommandDesk.Proofs.Synonym.Guess

/-!
# Two rankings that agree

A verb can be ranked against a list of groups, which keeps the positive scores, and
mapped, which keeps the scores that are not below a floor. A score is a number
(`isNaN_ofVerb`), so above a positive floor both keep the same; and a stable sort
commutes with what is left out. Without a noun, what a verb is mapped to is the
ranking down to the floor, cut after five (`candidates_map_eq_ranking`).
-/

namespace CommandDesk

/-- Where what is kept comes first, it makes no difference whether a list is cut before or after the
rest is left out. -/
theorem filter_take_of_pairwise {β : Type} {p : β → Bool} {xs : List β}
    (h : xs.Pairwise fun x y => p y = true → p x = true) (n : Nat) :
    (xs.take n).filter p = (xs.filter p).take n := by
  induction xs generalizing n with
  | nil => simp
  | cons x xs ih =>
    obtain ⟨hx, hxs⟩ := List.pairwise_cons.1 h
    cases n with
    | zero => simp
    | succ n =>
      rw [List.take_succ_cons, List.filter_cons, List.filter_cons, ih hxs]
      by_cases hp : p x = true
      · rw [if_pos hp, if_pos hp, List.take_succ_cons]
      · -- nothing that follows is kept either
        have hnone : xs.filter p = [] :=
          List.filter_eq_nil_iff.2 fun y hy hpy => hp (hx y hy hpy)
        rw [if_neg hp, if_neg hp, hnone, List.take_nil, List.take_nil]

/-! ## Scores are numbers -/

namespace Grade

theorem isNaN_foldl_larger {a : Float} (ha : a.isNaN = false) (xs : List Float) :
    (xs.foldl larger a).isNaN = false := by
  induction xs generalizing a with
  | nil => exact ha
  | cons x xs ih =>
    rw [List.foldl_cons]
    refine ih ?_
    unfold larger
    split
    · rename_i hlt
      exact isNaN_of_float_le (float_le_of_lt hlt)
    · exact ha

end Grade

/-- Weights that edits put into a vocabulary are numbers. -/
theorem Vocabulary.Sound.isNaN_weight {v : Vocabulary Float} (h : v.Sound) {g : Group Float}
    (hg : g ∈ v.groups) {e : String × Float} (he : e ∈ g.synonyms.entries) :
    e.2.isNaN = false := by
  obtain ⟨w, hw⟩ := (h.settled g hg e he).clamped
  rw [hw]
  exact Grade.isNaN_of_float_le (Grade.float_clamp_bounds w).1

/-- **A score is a number** where weights are: what is no number is never the larger one. -/
theorem Score.isNaN_ofVerb {synonyms : Synonyms Float}
    (h : ∀ e ∈ synonyms.entries, e.2.isNaN = false) (fuzzy : Bool) (verb : String) :
    (ofVerb fuzzy verb synonyms).isNaN = false := by
  have hnormal := Text.normalize_normalize verb
  rw [← ofVerb_normalize]
  cases hget : synonyms.get? (Text.normalize verb) with
  | some w =>
    rw [ofVerb_of_get?_eq_some hnormal hget]
    exact h (Text.normalize verb, w) (Table.mem_of_get? hget)
  | none =>
    rw [ofVerb_of_get?_eq_none hnormal hget]
    split
    · unfold guess
      exact Grade.isNaN_foldl_larger (by decide) _
    · decide

namespace Mapper

/-! ## The two rankings -/

section

variable {α : Type} [Grade α] {m : Mapper α} {verb : String}

/-- The positive scores of all commands, ranked. -/
theorem ranking_toList (m : Mapper α) (verb : String) :
    Score.ranking m.rules.fuzzy verb m.vocabulary.toList =
      Grade.ranked (·.2) ((m.scores (Text.normalize verb)).filter (0.0 < ·.2)) := by
  have hscores : (m.vocabulary.toList.map fun g =>
      (g.1, Score.ofVerb m.rules.fuzzy verb g.2)) = m.scores (Text.normalize verb) := by
    unfold Vocabulary.toList scores
    rw [List.map_map]
    refine List.map_congr_left fun g _ => ?_
    rw [Score.ofVerb_normalize]
    rfl
  unfold Score.ranking
  rw [hscores]

/-- Without a noun, the scores that are not below the floor, ranked and cut after five. -/
theorem pairs_candidates_map (hverb : Text.normalize verb ≠ "") :
    (m.map verb none).candidates.map (fun c => (c.command, c.confidence)) =
      (Grade.ranked (·.2)
        ((m.scores (Text.normalize verb)).filter fun e => ¬ e.2 < m.rules.reject)).take 5 := by
  have hpair : (fun c : Candidate α => (c.command, c.confidence)) ∘ m.penalized none = id := by
    funext e
    have hagrees : NounAgrees none e.1 := fun n hn => by cases hn
    have hconfidence : (m.penalized none e).confidence = e.2 := by
      unfold penalized
      rw [if_pos hagrees]
    exact Prod.ext rfl hconfidence
  have hranked : ∀ cs : List (Candidate α),
      (Grade.ranked Candidate.confidence cs).map (fun c => (c.command, c.confidence)) =
        Grade.ranked (·.2) (cs.map fun c => (c.command, c.confidence)) :=
    Grade.map_ranked fun _ => rfl
  rw [candidates_map m none hverb, ranking_eq_ranked, List.map_take, hranked]
  unfold eligible
  rw [List.map_map, hpair, List.map_id]
  rfl

/-- **The rankings agree down to the floor**, where every score that is not below it is positive. -/
theorem pairs_candidates_map_eq_filter [LawfulGrade α] (hverb : Text.normalize verb ≠ "")
    (hpos : ∀ e ∈ m.scores (Text.normalize verb), ¬ e.2 < m.rules.reject → 0.0 < e.2) :
    (m.map verb none).candidates.map (fun c => (c.command, c.confidence)) =
      ((Score.ranking m.rules.fuzzy verb m.vocabulary.toList).filter
        fun e => ¬ e.2 < m.rules.reject).take 5 := by
  rw [pairs_candidates_map hverb, ranking_toList, Grade.filter_ranked, List.filter_filter]
  congr 2
  refine List.filter_congr fun e he => ?_
  by_cases hfloor : e.2 < m.rules.reject
  · simp [hfloor]
  · simp [hfloor, hpos e he hfloor]

end

variable {m : Mapper Float} {verb : String}

/-- What is not below a positive floor is at least as high. -/
theorem reject_le_of_mem_scores (hsound : m.vocabulary.Sound) (hfloor : 0.0 < m.rules.reject)
    {e : String × Float} (he : e ∈ m.scores verb) (hscore : ¬ e.2 < m.rules.reject) :
    m.rules.reject ≤ e.2 := by
  obtain ⟨g, hg, rfl⟩ := List.mem_map.1 he
  have hnumber := Score.isNaN_ofVerb (fun e he => hsound.isNaN_weight hg he) m.rules.fuzzy verb
  have hreject : m.rules.reject.isNaN = false :=
    Grade.isNaN_of_float_le (Grade.float_le_of_lt hfloor)
  exact Grade.float_le_of_not_lt hnumber hreject hscore

/-- What is ranked before a score that is not below the floor is not below it either. -/
theorem pairwise_ranking_floor (hsound : m.vocabulary.Sound) (hfloor : 0.0 < m.rules.reject)
    (verb : String) :
    (Score.ranking m.rules.fuzzy verb m.vocabulary.toList).Pairwise fun x y =>
      decide (¬ y.2 < m.rules.reject) = true → decide (¬ x.2 < m.rules.reject) = true := by
  rw [ranking_toList]
  refine List.Pairwise.imp_of_mem ?_ (Grade.pairwise_ranked _ _)
  intro x y _ hy hrank hkept
  have hmem := (List.mem_filter.1 (Grade.mem_ranked.1 hy)).1
  have hle := reject_le_of_mem_scores hsound hfloor hmem (of_decide_eq_true hkept)
  refine decide_eq_true fun hlt => ?_
  -- a lower score would be ranked lower
  have hlower := Grade.floatRank_lt_of_lt (Grade.float_lt_of_lt_of_le hlt hle)
  exact absurd (Grade.rankLe_float.1 hrank) (not_le.2 hlower)

/-- **A verb is mapped to the best of its ranking.** Under a positive floor, and without a noun, the
candidates of a mapping with their confidences are the first five of the positive scores of all
commands, best first, that are not below the floor; and those of the first five that are not. -/
theorem candidates_map_eq_ranking (es : List (Vocabulary.Edit Float)) (catalog : Catalog)
    (rules : MapRules Float) (verb : String) (hfloor : 0.0 < rules.reject)
    (hverb : Text.normalize verb ≠ "") :
    let m : Mapper Float := ⟨.ofEdits es, catalog, rules⟩
    let listed := (m.map verb none).candidates.map fun c => (c.command, c.confidence)
    let scores := Score.ranking rules.fuzzy verb m.vocabulary.toList
    listed = (scores.filter fun e => ¬ e.2 < rules.reject).take 5 ∧
      listed = (scores.take 5).filter fun e => ¬ e.2 < rules.reject := by
  intro m listed scores
  have hsound : m.vocabulary.Sound := Vocabulary.sound_ofEdits es
  have hlisted : listed = (scores.filter fun e => ¬ e.2 < rules.reject).take 5 :=
    pairs_candidates_map_eq_filter hverb fun e he hscore =>
      Grade.float_lt_of_lt_of_le hfloor (reject_le_of_mem_scores hsound hfloor he hscore)
  refine ⟨hlisted, hlisted.trans ?_⟩
  exact (filter_take_of_pairwise (pairwise_ranking_floor hsound hfloor verb) 5).symm

/-- Of two commands with one score the first stays first; a third one is below the floor. -/
theorem candidates_map_eq_ranking_list :
    let m : Mapper Float := ⟨.ofEdits [.add "list-files" "list" 80.0, .add "peek-data" "list" 20.0,
      .add "show-list" "list" 80.0], .standard, .standard⟩
    let listed := (m.map " List" none).candidates.map fun c => (c.command, c.confidence)
    let scores := Score.ranking m.rules.fuzzy " List" m.vocabulary.toList
    0.0 < m.rules.reject ∧ Text.normalize " List" ≠ "" ∧
      listed = (scores.filter fun e => ¬ e.2 < m.rules.reject).take 5 ∧
      listed = (scores.take 5).filter (fun e => ¬ e.2 < m.rules.reject) ∧
      listed = [("list-files", 80.0), ("show-list", 80.0)] := by
  intro m listed scores
  have hfloor : 0.0 < m.rules.reject := by decide
  have hverb : Text.normalize " List" ≠ "" := by decide +kernel
  have h := candidates_map_eq_ranking [.add "list-files" "list" 80.0,
    .add "peek-data" "list" 20.0, .add "show-list" "list" 80.0] .standard .standard " List" hfloor
    hverb
  exact ⟨hfloor, hverb, h.1, h.2, by decide +kernel⟩

end Mapper

end CommandDesk
