import CommandDesk.Proofs.Mapping.Reference
import CommandDesk.Proofs.Synonym.Guess

/-!
# When a mapping is used without asking

Over exact grades. A guess scores at most seventy, and so does a synonym of a
command with another noun. Where the direct threshold is above that, a mapping
is used without asking exactly when the verb itself is a synonym of weight
enough of a command whose noun agrees, and then the target is such a command
(`requiresConfirmation_map_iff`).
-/

namespace CommandDesk

/-- What valid rules are: thresholds in range, and no floor above the direct threshold. -/
theorem MapRules.validate_eq_ok {α : Type} [Grade α] {r : MapRules α} :
    r.validate = .ok () ↔
      inRange r.direct = true ∧ inRange r.reject = true ∧ ¬ r.direct < r.reject := by
  unfold validate
  by_cases hdirect : inRange r.direct = true
  · by_cases hreject : inRange r.reject = true
    · simp [hdirect, hreject]
    · simp [hdirect, hreject]
  · simp [hdirect]

namespace Mapper

/-- The verb is a synonym, of that weight, of a command with which the noun agrees. -/
def StandsFor {α : Type} (verb : String) (noun : Option String) (g : Group α) (w : α) : Prop :=
  g.synonyms.get? verb = some w ∧ NounAgrees noun g.command

variable {m : Mapper Rat} {verb : String} {noun : Option String} {g : Group Rat} {w : Rat}

/-! ## Scores -/

/-- A verb that is a synonym scores its weight; any other scores at most seventy. -/
theorem ofVerb_cases (hverb : Text.normalize verb = verb)
    (hbounds : ∀ e ∈ g.synonyms.entries, 0 ≤ e.2 ∧ e.2 ≤ 100) (fuzzy : Bool) :
    g.synonyms.get? verb = some (Score.ofVerb fuzzy verb g.synonyms) ∨
      Score.ofVerb fuzzy verb g.synonyms ≤ 70 := by
  cases h : g.synonyms.get? verb with
  | some w =>
    left
    rw [Score.ofVerb_of_get?_eq_some hverb h]
  | none =>
    right
    rw [Score.ofVerb_of_get?_eq_none hverb h]
    split
    · exact Score.guess_le hbounds
    · norm_num

/-- **A confidence above seventy** is the weight of a synonym of a command with which the noun
agrees. -/
theorem standsFor_of_mem_eligible (hsound : m.vocabulary.Sound)
    (hverb : Text.normalize verb = verb) {c : Candidate Rat} (hc : c ∈ m.eligible verb noun)
    (habove : 70 < c.confidence) :
    ∃ g ∈ m.vocabulary.groups, c.command = g.command ∧ StandsFor verb noun g c.confidence := by
  obtain ⟨g, hg, -, rfl⟩ := mem_eligible.1 hc
  have hbounds : ∀ e ∈ g.synonyms.entries, 0 ≤ e.2 ∧ e.2 ≤ 100 :=
    fun e he => hsound.weight_bounds hg he
  have hcases := ofVerb_cases hverb hbounds m.rules.fuzzy
  set score := Score.ofVerb m.rules.fuzzy verb g.synonyms with hscore
  have hle : score ≤ 100 := by
    rcases hcases with h | h
    · exact (hbounds _ (Table.mem_of_get? h)).2
    · linarith
  by_cases hnoun : NounAgrees noun g.command
  · have hconfidence : (m.penalized noun (g.command, score)).confidence = score := if_pos hnoun
    rw [hconfidence] at habove ⊢
    refine ⟨g, hg, rfl, ?_, hnoun⟩
    exact hcases.resolve_right (not_le.2 habove)
  · -- the penalty leaves at most seventy of a hundred
    have hconfidence : (m.penalized noun (g.command, score)).confidence = score * 0.7 :=
      if_neg hnoun
    rw [hconfidence] at habove
    linarith

/-- A command that the verb stands for is eligible with its weight, if that is above the floor. -/
theorem StandsFor.mem_eligible (h : StandsFor verb noun g w) (hg : g ∈ m.vocabulary.groups)
    (hverb : Text.normalize verb = verb) (hfloor : m.rules.reject ≤ w) :
    ⟨g.command, w, m.catalog.description? g.command⟩ ∈ m.eligible verb noun := by
  obtain ⟨hget, hnoun⟩ := h
  have hscore : Score.ofVerb m.rules.fuzzy verb g.synonyms = w :=
    Score.ofVerb_of_get?_eq_some hverb hget m.rules.fuzzy
  refine Mapper.mem_eligible.2 ⟨g, hg, ?_, ?_⟩
  · rw [hscore]
    exact not_lt.2 hfloor
  · unfold penalized
    rw [hscore, if_pos hnoun]

/-! ## The mapping -/

/-- The best candidate decides: no confirmation is asked for exactly when there is one and its
confidence reaches the threshold. -/
theorem requiresConfirmation_eq_false_iff (hverb : Text.normalize verb ≠ "") :
    (m.map verb noun).requiresConfirmation = false ↔
      ∃ best others, m.ranking (Text.normalize verb) noun = best :: others ∧
        m.rules.direct ≤ best.confidence := by
  cases h : m.ranking (Text.normalize verb) noun with
  | nil =>
    rw [map_of_ranking_eq_nil h]
    simp [Mapping.unmatched]
  | cons best others =>
    rw [map_of_ranking_eq_cons hverb h]
    constructor
    · intro hdirect
      exact ⟨best, others, rfl, not_lt.1 (of_decide_eq_false hdirect)⟩
    · rintro ⟨_, _, heq, hdirect⟩
      obtain ⟨rfl, -⟩ := List.cons.inj heq
      exact decide_eq_false (not_lt.2 hdirect)

/-- A mapping that needs no confirmation is one that the verb stands for. -/
theorem standsFor_target (hsound : m.vocabulary.Sound) (hdirect : 70 < m.rules.direct)
    (hverb : Text.normalize verb ≠ "") (h : (m.map verb noun).requiresConfirmation = false) :
    ∃ g ∈ m.vocabulary.groups, (m.map verb noun).target = some g.command ∧
      m.rules.direct ≤ (m.map verb noun).confidence ∧
        StandsFor (Text.normalize verb) noun g (m.map verb noun).confidence := by
  obtain ⟨best, others, hranking, hbest⟩ := (requiresConfirmation_eq_false_iff hverb).1 h
  have hmem : best ∈ m.eligible (Text.normalize verb) noun :=
    mem_ranking.1 (hranking ▸ List.mem_cons_self)
  obtain ⟨g, hg, hcommand, hstands⟩ := standsFor_of_mem_eligible hsound
    (Text.normalize_normalize verb) hmem (lt_of_lt_of_le hdirect hbest)
  rw [map_of_ranking_eq_cons hverb hranking]
  exact ⟨g, hg, congrArg some hcommand, hbest, hstands⟩

/-- A verb that stands for a command with a weight that reaches the threshold needs no
confirmation. -/
theorem StandsFor.requiresConfirmation_eq_false (h : StandsFor (Text.normalize verb) noun g w)
    (hg : g ∈ m.vocabulary.groups) (hfloor : m.rules.reject ≤ m.rules.direct)
    (hle : m.rules.direct ≤ w) (hverb : Text.normalize verb ≠ "") :
    (m.map verb noun).requiresConfirmation = false := by
  have hmem := h.mem_eligible hg (Text.normalize_normalize verb) (hfloor.trans hle)
  rw [requiresConfirmation_eq_false_iff hverb]
  cases hranking : m.ranking (Text.normalize verb) noun with
  | nil =>
    rw [← mem_ranking, hranking] at hmem
    exact absurd hmem List.not_mem_nil
  | cons best others =>
    -- the best candidate is ranked as high as the one that the verb stands for
    rw [ranking_eq_ranked] at hranking
    have hbest := Grade.rankLe_rat.1 (Grade.rankLe_head hranking hmem)
    exact ⟨best, others, rfl, hle.trans hbest⟩

/-- **A mapping is used without asking exactly when the verb stands for a command** with a weight
that reaches the threshold; its target is then a command that the verb stands for. -/
theorem requiresConfirmation_map_iff (es : List (Vocabulary.Edit Rat)) (catalog : Catalog)
    (rules : MapRules Rat) (verb : String) (noun : Option String)
    (hvalid : rules.validate = .ok ()) (hdirect : 70 < rules.direct)
    (hverb : Text.normalize verb ≠ "") :
    let m : Mapper Rat := ⟨.ofEdits es, catalog, rules⟩
    let v := Text.normalize verb
    let r := m.map verb noun
    (r.requiresConfirmation = false ↔
        ∃ g ∈ m.vocabulary.groups, ∃ w, StandsFor v noun g w ∧ rules.direct ≤ w) ∧
      (r.requiresConfirmation = false →
        ∃ g ∈ m.vocabulary.groups, r.target = some g.command ∧
          StandsFor v noun g r.confidence) := by
  intro m v r
  have hsound : m.vocabulary.Sound := Vocabulary.sound_ofEdits es
  have hfloor : rules.reject ≤ rules.direct := not_lt.1 (MapRules.validate_eq_ok.1 hvalid).2.2
  refine ⟨⟨?_, ?_⟩, ?_⟩
  · intro h
    obtain ⟨g, hg, -, hle, hstands⟩ := standsFor_target hsound hdirect hverb h
    exact ⟨g, hg, r.confidence, hstands, hle⟩
  · rintro ⟨g, hg, w, hstands, hle⟩
    exact hstands.requiresConfirmation_eq_false hg hfloor hle hverb
  · intro h
    obtain ⟨g, hg, htarget, -, hstands⟩ := standsFor_target hsound hdirect hverb h
    exact ⟨g, hg, htarget, hstands⟩

/-- A verb that is a synonym is used, although it resembles a synonym of greater weight. -/
theorem requiresConfirmation_map_show :
    let m : Mapper Rat :=
      ⟨.ofEdits [.add "list-files" " Show" 95, .add "search-content" "shows" 100], .standard,
        .standard⟩
    let r := m.map "SHOW " (some "files")
    r.requiresConfirmation = false ∧
      ∃ g ∈ m.vocabulary.groups, r.target = some g.command ∧
        StandsFor (Text.normalize "SHOW ") (some "files") g r.confidence := by
  have hvalid : (MapRules.standard : MapRules Rat).validate = .ok () :=
    MapRules.validate_eq_ok.2 (by decide +kernel)
  have h := requiresConfirmation_map_iff
    [.add "list-files" " Show" 95, .add "search-content" "shows" 100] .standard .standard "SHOW "
    (some "files") hvalid (by decide +kernel) (by decide +kernel)
  have hdirect := h.1.2
    ⟨_, List.mem_cons_self, 95, ⟨by decide +kernel, by decide +kernel⟩, by decide +kernel⟩
  exact ⟨hdirect, h.2 hdirect⟩

end Mapper

end CommandDesk
