import CommandDesk.Proofs.Mapping.Reference
import CommandDesk.Proofs.Synonym.Guess
import CommandDesk.Proofs.Text.Split

/-!
# Verbs that no command knows

A verb is unknown where it is no synonym of any command and resembles none, or
resemblance does not count. Every command scores it zero, so the list of positive
scores is empty. The floor of a mapper drops what is below it and not what is at
it: the verb is unmatched under a positive floor, and under a floor of zero it is
mapped to the first command there is (`map_of_unknown`).
-/

namespace CommandDesk

namespace Score

variable {α : Type} [Grade α] {verb : String} {synonyms : Synonyms α}

variable (α) in
/-- A verb resembles a synonym: one is an initial part of the other, or few edits separate them. -/
def Resembles (verb synonym : String) : Prop :=
  verb.toList <+: synonym.toList ∨ synonym.toList <+: verb.toList ∨
    (leastSimilarity : α) < similarity verb.toList synonym.toList

instance (verb synonym : String) : Decidable (Resembles α verb synonym) :=
  inferInstanceAs (Decidable (_ ∨ _ ∨ _))

/-- What a verb does not resemble gives it no score. -/
theorem resemblances_eq_nil {e : String × α} (h : ¬ Resembles α verb e.1) :
    resemblances verb.toList e = [] := by
  unfold Resembles at h
  rw [not_or, not_or] at h
  obtain ⟨hverb, hsynonym, hedits⟩ := h
  have hinitial : byInitial verb.toList e.1.toList e.2 = [] := by
    rw [← Text.isInitial_iff] at hverb hsynonym
    unfold byInitial
    rw [Bool.not_eq_true] at hverb hsynonym
    rw [hverb, hsynonym, Bool.or_false, if_neg Bool.false_ne_true]
  have hfew : byEdits verb.toList e.1.toList e.2 = [] := if_neg hedits
  unfold resemblances
  rw [hinitial, hfew, List.append_nil, ite_self]

/-- **Where nothing resembles a verb** the guess is zero. -/
theorem guess_eq_zero (h : ∀ e ∈ synonyms.entries, ¬ Resembles α verb e.1) :
    guess verb synonyms = 0.0 := by
  have hnone : synonyms.entries.flatMap (resemblances verb.toList) = [] :=
    List.flatMap_eq_nil_iff.2 fun e he => resemblances_eq_nil (h e he)
  unfold guess
  rw [hnone, List.foldl_nil]

end Score

namespace Mapper

variable {α : Type} [Grade α] {m : Mapper α} {verb : String} {noun : Option String}

/-- A verb is a synonym of no command of the vocabulary and, where resemblance counts, resembles
none. -/
def Unknown (m : Mapper α) (verb : String) : Prop :=
  ∀ g ∈ m.vocabulary.groups, g.synonyms.get? verb = none ∧
    (m.rules.fuzzy = true → ∀ e ∈ g.synonyms.entries, ¬ Score.Resembles α verb e.1)

instance (m : Mapper α) (verb : String) : Decidable (m.Unknown verb) :=
  inferInstanceAs (Decidable (∀ g ∈ m.vocabulary.groups, _ ∧ (_ → ∀ e ∈ g.synonyms.entries, _)))

/-- Every command scores an unknown verb zero. -/
theorem Unknown.score (h : m.Unknown verb) (hverb : Text.normalize verb = verb) {g : Group α}
    (hg : g ∈ m.vocabulary.groups) : Score.ofVerb m.rules.fuzzy verb g.synonyms = 0.0 := by
  obtain ⟨hget, hresembles⟩ := h g hg
  rw [Score.ofVerb_of_get?_eq_none hverb hget]
  by_cases hfuzzy : m.rules.fuzzy = true
  · rw [if_pos hfuzzy, Score.guess_eq_zero (hresembles hfuzzy)]
  · rw [if_neg hfuzzy]

/-- **The list of positive scores** has no command for an unknown verb. -/
theorem Unknown.ranking_eq_nil {m : Mapper Float} (h : m.Unknown verb)
    (hverb : Text.normalize verb = verb) :
    Score.ranking m.rules.fuzzy verb m.vocabulary.toList = [] := by
  have hzero : ¬ (0.0 : Float) < 0.0 := by decide
  have hnone : (m.vocabulary.toList.map fun g =>
      (g.1, Score.ofVerb m.rules.fuzzy verb g.2)).filter (0.0 < ·.2) = [] := by
    rw [List.filter_eq_nil_iff]
    intro e he
    obtain ⟨_, hpair, rfl⟩ := List.mem_map.1 he
    obtain ⟨g, hg, rfl⟩ := List.mem_map.1 hpair
    rw [h.score hverb hg]
    simpa using hzero
  unfold Score.ranking
  rw [hnone]
  rfl

/-- A positive floor drops every command for an unknown verb. -/
theorem Unknown.eligible_eq_nil (h : m.Unknown verb) (hverb : Text.normalize verb = verb)
    (hfloor : (0.0 : α) < m.rules.reject) : m.eligible verb noun = [] := by
  rw [List.eq_nil_iff_forall_not_mem]
  intro c hc
  obtain ⟨g, hg, hscore, -⟩ := mem_eligible.1 hc
  rw [h.score hverb hg] at hscore
  exact hscore hfloor

/-- Any other floor drops none. -/
theorem Unknown.eligible_eq (h : m.Unknown verb) (hverb : Text.normalize verb = verb)
    (hfloor : ¬ (0.0 : α) < m.rules.reject) :
    m.eligible verb noun = m.vocabulary.groups.map fun g => m.penalized noun (g.command, 0.0) := by
  have hscores : m.scores verb = m.vocabulary.groups.map fun g => (g.command, 0.0) :=
    List.map_congr_left fun g hg => by rw [h.score hverb hg]
  unfold eligible
  rw [hscores, List.filter_eq_self.2, List.map_map]
  · rfl
  · intro e he
    obtain ⟨g, -, rfl⟩ := List.mem_map.1 he
    simpa using hfloor

/-- All commands as candidates of confidence zero. -/
def atZero (m : Mapper Float) : List (Candidate Float) :=
  m.vocabulary.commands.map fun command => ⟨command, 0.0, m.catalog.description? command⟩

/-- **Without a positive floor** an unknown verb has every command as a candidate, whatever the noun,
in the order of the vocabulary. -/
theorem Unknown.ranking_eq {m : Mapper Float} (h : m.Unknown verb)
    (hverb : Text.normalize verb = verb) (hfloor : ¬ 0.0 < m.rules.reject) :
    m.ranking verb noun = m.atZero := by
  have hpenalty : (0.0 : Float) * nounPenalty = 0.0 := by decide
  have heligible : m.eligible verb noun = m.atZero := by
    rw [h.eligible_eq hverb hfloor]
    unfold atZero Vocabulary.commands
    rw [List.map_map]
    refine List.map_congr_left fun g _ => ?_
    unfold penalized
    rw [hpenalty, ite_self]
    rfl
  rw [ranking_eq_ranked, heligible]
  -- candidates of one confidence keep their order
  refine Grade.ranked_of_pairwise (List.Pairwise.imp_of_mem (R := fun _ _ => True) ?_ ?_)
  · intro c d hc hd _
    obtain ⟨_, -, rfl⟩ := List.mem_map.1 hc
    obtain ⟨_, -, rfl⟩ := List.mem_map.1 hd
    exact Grade.rankLe_float.2 (Int.le_refl _)
  · exact List.pairwise_of_forall fun _ _ => trivial

/-- **What an unknown verb is mapped to.** Under a positive floor, or where there is no verb or no
command, it is unmatched. Otherwise it is mapped to the first command of the vocabulary, followed by
the next four, all of confidence zero; whether that needs confirmation is left to the direct
threshold. -/
theorem map_of_unknown (m : Mapper Float) (verb : String) (noun : Option String)
    (h : m.Unknown (Text.normalize verb)) :
    let v := Text.normalize verb
    let r := m.map verb noun
    (0.0 < m.rules.reject ∨ v = "" ∨ m.vocabulary.commands = [] → r = .unmatched v) ∧
      (¬ 0.0 < m.rules.reject → v ≠ "" → ∀ first ∈ m.vocabulary.commands.head?,
        r.matched = true ∧ r.target = some first ∧ r.confidence = 0.0 ∧
          r.requiresConfirmation = decide (0.0 < m.rules.direct) ∧
          r.candidates = m.atZero.take 5) := by
  intro v r
  have hnormal : Text.normalize v = v := Text.normalize_normalize verb
  refine ⟨?_, fun hfloor hv first hfirst => ?_⟩
  · rintro (hfloor | hv | hcommands)
    · exact map_of_eligible_eq_nil (h.eligible_eq_nil hnormal hfloor)
    · exact map_of_normalize_eq hv
    · have hgroups : m.vocabulary.groups = [] := List.map_eq_nil_iff.1 hcommands
      refine map_of_eligible_eq_nil ?_
      unfold eligible scores
      rw [hgroups]
      rfl
  · have hranking : m.ranking v noun = m.atZero := h.ranking_eq hnormal hfloor
    have hcandidates : r.candidates = m.atZero.take 5 := by
      rw [← hranking]
      exact candidates_map m noun hv
    obtain ⟨others, hcommands⟩ := List.head?_eq_some_iff.1 hfirst
    unfold atZero at hranking
    rw [hcommands, List.map_cons] at hranking
    have hmap := map_of_ranking_eq_cons hv hranking
    refine ⟨?_, ?_, ?_, ?_, hcandidates⟩
    · exact congrArg Mapping.matched hmap
    · exact congrArg Mapping.target hmap
    · exact congrArg Mapping.confidence hmap
    · exact congrArg Mapping.requiresConfirmation hmap

/-- A mapper that knows two commands. -/
def ofTwoCommands (rules : MapRules Float) : Mapper Float :=
  ⟨.ofEdits [.add "list-files" "list" 100.0, .add "open-page" "open" 90.0], .standard, rules⟩

/-- Under the standard floor an unknown verb is unmatched. -/
theorem map_of_unknown_figure :
    (ofTwoCommands .standard).Unknown (Text.normalize "Figure ") ∧
      (ofTwoCommands .standard).map "Figure " none = .unmatched (Text.normalize "Figure ") := by
  have hunknown : (ofTwoCommands .standard).Unknown (Text.normalize "Figure ") := by
    decide +kernel
  have hfloor : (0.0 : Float) < (ofTwoCommands .standard).rules.reject := by decide
  exact ⟨hunknown, (map_of_unknown _ "Figure " none hunknown).1 (.inl hfloor)⟩

/-- Under a floor of zero, which is valid, an unknown verb is mapped to the first command. -/
theorem matched_map_figure :
    ∃ m, make (ofTwoCommands .standard).vocabulary ⟨90.0, 0.0, true⟩ .standard = .ok m ∧
      m.Unknown (Text.normalize "figure") ∧
      (m.map "figure" none).matched = true ∧
      (m.map "figure" none).target = some "list-files" := by
  refine ⟨ofTwoCommands ⟨90.0, 0.0, true⟩, rfl, ?_, ?_, ?_⟩
  · decide +kernel
  · decide +kernel
  · decide +kernel

end Mapper

end CommandDesk
