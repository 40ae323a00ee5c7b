import CommandDesk.Mapping
import CommandDesk.Proofs.Ranking
import CommandDesk.Proofs.Synonym.Edits

/-!
# Mapping against a reference

`eligible` lists, in the order of the vocabulary, the commands whose score is
not below the floor, with the score reduced afterwards where the nouns differ.
What a verb is mapped to is read off the first five of that list, sorted by
descending confidence with a stable sort (`map_eq_reference`).
-/

namespace CommandDesk

namespace Mapper

variable {α : Type} [Grade α]

/-- No noun was given that is not the command's own. -/
def NounAgrees (noun : Option String) (command : String) : Prop :=
  ∀ n ∈ noun, Text.trim n = "" ∨ Name.noun command = "" ∨ Text.trim n = Name.noun command

instance (noun : Option String) (command : String) : Decidable (NounAgrees noun command) :=
  inferInstanceAs (Decidable (∀ n ∈ noun, _))

/-- The scores of all commands, in the order of the vocabulary. -/
def scores (m : Mapper α) (verb : String) : List (String × α) :=
  m.vocabulary.groups.map fun g => (g.command, Score.ofVerb m.rules.fuzzy verb g.synonyms)

/-- The candidate for a command with a score. -/
def penalized (m : Mapper α) (noun : Option String) (e : String × α) : Candidate α :=
  ⟨e.1, if NounAgrees noun e.1 then e.2 else e.2 * nounPenalty, m.catalog.description? e.1⟩

/-- The candidates whose score is not below the floor, in the order of the vocabulary. -/
def eligible (m : Mapper α) (verb : String) (noun : Option String) : List (Candidate α) :=
  ((m.scores verb).filter fun e => ¬ e.2 < m.rules.reject).map (m.penalized noun)

variable {m : Mapper α} {verb : String} {noun : Option String}

/-! ## The candidates -/

theorem mem_eligible {c : Candidate α} :
    c ∈ m.eligible verb noun ↔
      ∃ g ∈ m.vocabulary.groups, ¬ Score.ofVerb m.rules.fuzzy verb g.synonyms < m.rules.reject ∧
        c = m.penalized noun (g.command, Score.ofVerb m.rules.fuzzy verb g.synonyms) := by
  constructor
  · intro h
    obtain ⟨e, he, rfl⟩ := List.mem_map.1 h
    obtain ⟨hscore, hfloor⟩ := List.mem_filter.1 he
    obtain ⟨g, hg, rfl⟩ := List.mem_map.1 hscore
    exact ⟨g, hg, of_decide_eq_true hfloor, rfl⟩
  · rintro ⟨g, hg, hfloor, rfl⟩
    have hscore : (g.command, Score.ofVerb m.rules.fuzzy verb g.synonyms) ∈ m.scores verb :=
      List.mem_map_of_mem hg
    exact List.mem_map_of_mem (List.mem_filter.2 ⟨hscore, decide_eq_true hfloor⟩)

theorem nounDiffers_eq_false {command : String} :
    nounDiffers noun command = false ↔ NounAgrees noun command := by
  cases noun with
  | none => simp [nounDiffers, NounAgrees]
  | some n =>
    by_cases hblank : Text.trim n = ""
    · have hfilter : ((some n).map Text.trim).filter (!·.isEmpty) = none := by
        rw [Option.map_some, hblank]
        rfl
      unfold nounDiffers
      rw [hfilter]
      simp [NounAgrees, hblank]
    · have hfilter : ((some n).map Text.trim).filter (!·.isEmpty) = some (Text.trim n) := by
        simp [hblank]
      have hagrees : NounAgrees (some n) command ↔
          Name.noun command = "" ∨ Text.trim n = Name.noun command := by
        simp [NounAgrees, hblank]
      rw [hagrees]
      unfold nounDiffers
      rw [hfilter]
      simp only [ne_eq, Bool.and_eq_false_iff, decide_eq_false_iff_not, Decidable.not_not]
      exact or_congr_right eq_comm

theorem candidate?_eq (m : Mapper α) (verb : String) (noun : Option String) (g : Group α) :
    m.candidate? verb noun g =
      if Score.ofVerb m.rules.fuzzy verb g.synonyms < m.rules.reject then none
      else some
        (m.penalized noun (g.command, Score.ofVerb m.rules.fuzzy verb g.synonyms)) := by
  unfold candidate? penalized
  by_cases hnoun : NounAgrees noun g.command
  · simp [nounDiffers_eq_false.2 hnoun, hnoun]
  · have hdiffers : nounDiffers noun g.command = true := by
      rw [← Bool.not_eq_false, nounDiffers_eq_false]
      exact hnoun
    simp [hdiffers, hnoun]

/-- A ranking is the reference list, ranked. -/
theorem ranking_eq_ranked (m : Mapper α) (verb : String) (noun : Option String) :
    m.ranking verb noun = Grade.ranked (·.confidence) (m.eligible verb noun) := by
  have hlist : m.vocabulary.groups.filterMap (m.candidate? verb noun) = m.eligible verb noun := by
    unfold eligible scores
    induction m.vocabulary.groups with
    | nil => rfl
    | cons g gs ih =>
      -- the floor is applied to the score, before the nouns are looked at
      rw [List.filterMap_cons, candidate?_eq]
      by_cases hfloor : Score.ofVerb m.rules.fuzzy verb g.synonyms < m.rules.reject
      · simp [hfloor, ih]
      · simp [hfloor, ih]
  unfold ranking
  rw [hlist]

/-- A command is eligible as often as it is listed, or less. -/
theorem commands_eligible_sublist (m : Mapper α) (verb : String) (noun : Option String) :
    ((m.eligible verb noun).map (·.command)).Sublist m.vocabulary.commands := by
  have hkey : (m.eligible verb noun).map (·.command) =
      ((m.scores verb).filter fun e => ¬ e.2 < m.rules.reject).map (·.1) := by
    unfold eligible
    rw [List.map_map]
    rfl
  have hcommands : (m.scores verb).map (·.1) = m.vocabulary.commands := by
    unfold scores Vocabulary.commands
    rw [List.map_map]
    rfl
  rw [hkey, ← hcommands]
  exact List.filter_sublist.map _

/-! ## The mapping -/

theorem map_of_normalize_eq (h : Text.normalize verb = "") :
    m.map verb noun = .unmatched (Text.normalize verb) := by
  simp [map, h]

theorem map_of_ranking_eq_nil (h : m.ranking (Text.normalize verb) noun = []) :
    m.map verb noun = .unmatched (Text.normalize verb) := by
  simp [map, h]

/-- The mapping of a verb for which there are candidates. -/
theorem map_of_ranking_eq_cons {best : Candidate α} {others : List (Candidate α)}
    (hverb : Text.normalize verb ≠ "")
    (h : m.ranking (Text.normalize verb) noun = best :: others) :
    m.map verb noun =
      { verb := Text.normalize verb
        matched := true
        target := some best.command
        confidence := best.confidence
        targetDescription := best.description
        alternatives := others.take maxAlternatives
        requiresConfirmation := best.confidence < m.rules.direct } := by
  simp [map, hverb, h]

/-- A verb is mapped to nothing, or there is a ranking to map it by. -/
theorem map_cases (m : Mapper α) (verb : String) (noun : Option String) :
    m.map verb noun = .unmatched (Text.normalize verb) ∨
      Text.normalize verb ≠ "" ∧
        ∃ best others, m.ranking (Text.normalize verb) noun = best :: others := by
  by_cases hverb : Text.normalize verb = ""
  · exact .inl (map_of_normalize_eq hverb)
  · cases hranking : m.ranking (Text.normalize verb) noun with
    | nil => exact .inl (map_of_ranking_eq_nil hranking)
    | cons best others => exact .inr ⟨hverb, best, others, rfl⟩

/-- A mapping that needs confirmation is below the direct threshold, or there is none. -/
theorem lt_direct_or_unmatched (h : (m.map verb noun).requiresConfirmation = true) :
    (m.map verb noun).confidence < m.rules.direct ∨
      m.map verb noun = .unmatched (Text.normalize verb) := by
  rcases m.map_cases verb noun with hnone | ⟨hverb, best, others, hranking⟩
  · exact .inr hnone
  · rw [map_of_ranking_eq_cons hverb hranking] at h ⊢
    exact .inl (of_decide_eq_true h)

/-- The candidates of a mapping are the first few of the ranking. -/
theorem candidates_map (m : Mapper α) (noun : Option String) (hverb : Text.normalize verb ≠ "") :
    (m.map verb noun).candidates =
      (m.ranking (Text.normalize verb) noun).take (maxAlternatives + 1) := by
  cases h : m.ranking (Text.normalize verb) noun with
  | nil =>
    rw [map_of_ranking_eq_nil h]
    rfl
  | cons best others =>
    rw [map_of_ranking_eq_cons hverb h]
    rfl

theorem candidates_map_eq_nil (h : Text.normalize verb = "") :
    (m.map verb noun).candidates = [] := by
  rw [map_of_normalize_eq h]
  rfl

/-- Where nothing is eligible the verb stands for no command. -/
theorem map_of_eligible_eq_nil (h : m.eligible (Text.normalize verb) noun = []) :
    m.map verb noun = .unmatched (Text.normalize verb) := by
  refine map_of_ranking_eq_nil ?_
  rw [ranking_eq_ranked, h]
  rfl

/-! ## The reference -/

variable [LawfulGrade α]

theorem ranking_eq_mergeSort (m : Mapper α) (verb : String) (noun : Option String) :
    m.ranking verb noun =
      (m.eligible verb noun).mergeSort fun a b => Grade.rankLe b.confidence a.confidence := by
  rw [ranking_eq_ranked]
  exact Grade.ranked_eq_mergeSort _ _

theorem mem_ranking {c : Candidate α} : c ∈ m.ranking verb noun ↔ c ∈ m.eligible verb noun := by
  rw [ranking_eq_ranked, Grade.mem_ranked]

/-- No command stands twice in a ranking. -/
theorem nodup_ranking (h : m.vocabulary.Sound) (verb : String) (noun : Option String) :
    ((m.ranking verb noun).map (·.command)).Nodup := by
  have hperm : (Grade.ranked (·.confidence) (m.eligible verb noun)).Perm (m.eligible verb noun) :=
    Grade.ranked_perm
  rw [ranking_eq_ranked, (hperm.map _).nodup_iff]
  exact (commands_eligible_sublist m verb noun).nodup h.nodup

theorem nodup_candidates_map (h : m.vocabulary.Sound) (verb : String) (noun : Option String) :
    ((m.map verb noun).candidates.map (·.command)).Nodup := by
  by_cases hverb : Text.normalize verb = ""
  · rw [candidates_map_eq_nil hverb]
    exact List.nodup_nil
  · rw [candidates_map m noun hverb]
    exact (nodup_ranking h _ noun).sublist ((List.take_sublist _ _).map _)

/-- A candidate that a mapping leaves out is ranked no higher than one that it lists. -/
theorem rankLe_of_not_mem_candidates {c o : Candidate α} (hc : c ∈ (m.map verb noun).candidates)
    (ho : o ∈ m.eligible (Text.normalize verb) noun) (hout : o ∉ (m.map verb noun).candidates) :
    Grade.rankLe o.confidence c.confidence = true := by
  by_cases hverb : Text.normalize verb = ""
  · rw [candidates_map_eq_nil hverb] at hc
    exact absurd hc List.not_mem_nil
  · rw [candidates_map m noun hverb, ranking_eq_ranked] at hc hout
    exact Grade.rankLe_of_not_mem_take hc ho hout

/-- Where something is eligible the verb is mapped to the best of it. -/
theorem map_of_eligible_ne_nil (hverb : Text.normalize verb ≠ "")
    (h : m.eligible (Text.normalize verb) noun ≠ []) :
    ∃ best ∈ (m.ranking (Text.normalize verb) noun).head?,
      (m.map verb noun).verb = Text.normalize verb ∧ (m.map verb noun).matched = true ∧
        (m.map verb noun).target = some best.command ∧
          (m.map verb noun).confidence = best.confidence ∧
            (m.map verb noun).requiresConfirmation = decide (best.confidence < m.rules.direct) := by
  cases hranking : m.ranking (Text.normalize verb) noun with
  | nil =>
    -- a ranking has the entries it was given, so an empty one was given none
    refine absurd (List.eq_nil_iff_forall_not_mem.2 fun c hc => ?_) h
    rw [← mem_ranking, hranking] at hc
    exact List.not_mem_nil hc
  | cons best others =>
    rw [map_of_ranking_eq_cons hverb hranking]
    exact ⟨best, rfl, rfl, rfl, rfl, rfl, rfl⟩

/-- **A mapping is read off the reference list.** It lists the first five of the candidates sorted
by descending confidence, those of one confidence in the order of the vocabulary. -/
theorem map_eq_reference (m : Mapper Float) (verb : String) (noun : Option String) :
    let v := Text.normalize verb
    let e := m.eligible v noun
    let top := (e.mergeSort fun a b => Grade.rankLe b.confidence a.confidence).take 5
    let r := m.map verb noun
    (v = "" ∨ e = [] → r = .unmatched v) ∧
      (v ≠ "" → e ≠ [] →
        r.verb = v ∧ r.matched = true ∧ r.candidates = top ∧
          (∃ best ∈ top.head?, r.target = some best.command ∧ r.confidence = best.confidence) ∧
          r.requiresConfirmation = decide (r.confidence < m.rules.direct)) ∧
      (∀ es, m.vocabulary = .ofEdits es → (r.candidates.map (·.command)).Nodup) ∧
      ∀ c ∈ r.candidates, ∀ o ∈ e, o ∉ r.candidates →
        Grade.rankLe o.confidence c.confidence = true := by
  intro v e top r
  have htop : (m.ranking v noun).take 5 = top := by rw [ranking_eq_mergeSort]
  refine ⟨?_, ?_, ?_, ?_⟩
  · rintro (hv | he)
    · exact map_of_normalize_eq hv
    · exact map_of_eligible_eq_nil he
  · intro hv he
    obtain ⟨best, hbest, hverb, hmatched, htarget, hconfidence, hrequires⟩ :=
      map_of_eligible_ne_nil hv he
    have hhead : best ∈ top.head? := by
      rw [← htop, List.head?_take, if_neg (by decide)]
      exact hbest
    have hcandidates : r.candidates = top := (candidates_map m noun hv).trans htop
    rw [← hconfidence] at hrequires
    exact ⟨hverb, hmatched, hcandidates, ⟨best, hhead, htarget, hconfidence⟩, hrequires⟩
  · intro es hes
    have hsound : m.vocabulary.Sound := hes ▸ Vocabulary.sound_ofEdits es
    exact nodup_candidates_map hsound verb noun
  · intro c hc o ho hout
    exact rankLe_of_not_mem_candidates hc ho hout

end Mapper

end CommandDesk
