import CommandDesk.Proofs.Mapping.Reference
import CommandDesk.Proofs.Synonym.Gain
import Mathlib.Data.List.Perm.Subperm

/-!
# What a synonym does for the place of a command

Over exact grades. In the order of a ranking a command stands before another one
if it scores more, or as much and was registered first (`idxOf_order_lt_iff`). One
more synonym of the command raises no other score and lowers none of its own, but
for the synonym itself; so the command stays before all that it was before, and
keeps its place among the commands that a verb is mapped to, or improves it
(`addSynonym_keeps_place`).
-/

namespace CommandDesk

/-! ## Places in a list -/

/-- **Keeping a place** from one list to another: an entry stays in the list, it moves back behind
nothing that it stood before, and no further back at all. -/
structure KeepsPlace (a : String) (l l' : List String) : Prop where
  mem : a ∈ l → a ∈ l'
  place : a ∈ l → l'.idxOf a ≤ l.idxOf a
  ahead : ∀ b, l.idxOf a < l.idxOf b → l'.idxOf a < l'.idxOf b

section

variable {a b : String} {l l' : List String}

/-- Where nothing is listed twice, an entry that moves back behind nothing has no more before it. -/
theorem idxOf_le_of_ahead (hl' : l'.Nodup) (ha : a ∈ l)
    (hahead : ∀ b, l.idxOf a < l.idxOf b → l'.idxOf a < l'.idxOf b) : l'.idxOf a ≤ l.idxOf a := by
  have hlt : l.idxOf a < l.length := List.idxOf_lt_length_iff.2 ha
  -- what stands before the entry in the second list stood before it in the first
  have hsubset : l'.take (l'.idxOf a) ⊆ l.take (l.idxOf a) := by
    intro b hb
    have hbefore : l'.idxOf b < l'.idxOf a :=
      (List.mem_take_iff_idxOf_lt (List.mem_of_mem_take hb)).1 hb
    have hle : l.idxOf b ≤ l.idxOf a := not_lt.1 fun h => Nat.lt_asymm hbefore (hahead b h)
    have hmem : b ∈ l := List.idxOf_lt_length_iff.1 (lt_of_le_of_lt hle hlt)
    have hne : l.idxOf b ≠ l.idxOf a := by
      intro heq
      rw [(List.idxOf_inj hmem).1 heq] at hbefore
      exact Nat.lt_irrefl _ hbefore
    exact (List.mem_take_iff_idxOf_lt hmem).2 (lt_of_le_of_ne hle hne)
  have hcard := (List.subperm_of_subset (hl'.sublist (List.take_sublist _ _)) hsubset).length_le
  rw [List.length_take_of_le List.idxOf_le_length, List.length_take_of_le List.idxOf_le_length]
    at hcard
  exact hcard

theorem KeepsPlace.of_ahead (hl' : l'.Nodup) (hmem : a ∈ l → a ∈ l')
    (hahead : ∀ b, l.idxOf a < l.idxOf b → l'.idxOf a < l'.idxOf b) : KeepsPlace a l l' :=
  ⟨hmem, fun ha => idxOf_le_of_ahead hl' ha hahead, hahead⟩

theorem KeepsPlace.of_not_mem (h : a ∉ l) : KeepsPlace a l l' := by
  refine ⟨fun ha => absurd ha h, fun ha => absurd ha h, fun b hb => ?_⟩
  rw [List.idxOf_eq_length_iff.2 h] at hb
  exact absurd hb (not_lt.2 List.idxOf_le_length)

theorem idxOf_take (n : Nat) (a : String) (l : List String) :
    (l.take n).idxOf a = min (l.idxOf a) n := by
  induction l generalizing n with
  | nil => simp
  | cons b l ih =>
    cases n with
    | zero => simp
    | succ n =>
      rw [List.take_succ_cons, List.idxOf_cons, List.idxOf_cons, ih]
      cases b == a with
      | true => exact (Nat.zero_min (n + 1)).symm
      | false => exact (Nat.add_min_add_right _ _ 1).symm

/-- **The place among the first few** is kept as well. -/
theorem KeepsPlace.take (h : KeepsPlace a l l') (n : Nat) :
    KeepsPlace a (l.take n) (l'.take n) := by
  have hmem : ∀ l : List String, a ∈ l.take n ↔ a ∈ l ∧ l.idxOf a < n := by
    intro l
    constructor
    · intro ha
      exact ⟨List.mem_of_mem_take ha, (List.mem_take_iff_idxOf_lt (List.mem_of_mem_take ha)).1 ha⟩
    · rintro ⟨ha, hlt⟩
      exact (List.mem_take_iff_idxOf_lt ha).2 hlt
  refine ⟨fun ha => ?_, fun ha => ?_, fun b hb => ?_⟩
  · obtain ⟨ha, hlt⟩ := (hmem l).1 ha
    exact (hmem l').2 ⟨h.mem ha, lt_of_le_of_lt (h.place ha) hlt⟩
  · have hplace := h.place ((hmem l).1 ha).1
    rw [idxOf_take, idxOf_take]
    omega
  · rw [idxOf_take, idxOf_take] at hb ⊢
    have hlt : l.idxOf a < l.idxOf b := by omega
    have hlength := List.idxOf_le_length (l := l) (a := b)
    have hplace := h.place (List.idxOf_lt_length_iff.1 (lt_of_lt_of_le hlt hlength))
    have hahead := h.ahead b hlt
    omega

/-- What is listed in an order `R` stands before what it is ordered before, and before what is not
listed. -/
theorem idxOf_lt_iff_of_pairwise {β : Type} (key : β → String) {R : β → β → Prop} {xs : List β}
    (hnodup : (xs.map key).Nodup) (hR : xs.Pairwise R)
    (hasymm : ∀ x ∈ xs, ∀ y ∈ xs, R x y → ¬ R y x) {x : β} (hx : x ∈ xs) (b : String) :
    (xs.map key).idxOf (key x) < (xs.map key).idxOf b ↔ ∀ y ∈ xs, key y = b → R x y := by
  have hplace : ∀ i (hi : i < xs.length), (xs.map key).idxOf (key xs[i]) = i := by
    intro i hi
    have hi' : i < (xs.map key).length := by rwa [List.length_map]
    have hidx := hnodup.idxOf_getElem i hi'
    rwa [List.getElem_map] at hidx
  obtain ⟨i, hi, rfl⟩ := List.getElem_of_mem hx
  rw [hplace]
  constructor
  · rintro hlt y hy rfl
    obtain ⟨j, hj, rfl⟩ := List.getElem_of_mem hy
    rw [hplace] at hlt
    exact List.pairwise_iff_getElem.1 hR i j hi hj hlt
  · intro h
    by_cases hb : b ∈ xs.map key
    · obtain ⟨y, hy, rfl⟩ := List.mem_map.1 hb
      have hxy := h y hy rfl
      obtain ⟨j, hj, rfl⟩ := List.getElem_of_mem hy
      rw [hplace]
      rcases Nat.lt_trichotomy i j with hij | rfl | hji
      · exact hij
      · exact absurd hxy (hasymm _ hx _ hy hxy)
      · exact absurd (List.pairwise_iff_getElem.1 hR j i hj hi hji) (hasymm _ hx _ hy hxy)
    · rw [List.idxOf_eq_length_iff.2 hb, List.length_map]
      exact hi

end

namespace Mapper

/-! ## The order of a ranking -/

section

variable {α : Type} [Grade α]

/-- The score of a verb against a command. -/
def score (m : Mapper α) (verb command : String) : α :=
  m.vocabulary.score m.rules.fuzzy verb command

/-- The commands that a verb may stand for, best first. -/
def order (m : Mapper α) (verb : String) (noun : Option String) : List String :=
  (m.ranking (Text.normalize verb) noun).map (·.command)

/-- The commands that a verb is mapped to, the target first. -/
def listed (m : Mapper α) (verb : String) (noun : Option String) : List String :=
  (m.map verb noun).candidates.map (·.command)

variable {m : Mapper α} {verb : String} {noun : Option String} {c : Candidate α}

/-- Where no command is listed twice, a candidate is a command whose score is not below the
floor. -/
theorem mem_eligible_iff_score (hnodup : m.vocabulary.commands.Nodup) :
    c ∈ m.eligible verb noun ↔
      c.command ∈ m.vocabulary.commands ∧ ¬ m.score verb c.command < m.rules.reject ∧
        c = m.penalized noun (c.command, m.score verb c.command) := by
  have hscore : ∀ g ∈ m.vocabulary.groups,
      m.score verb g.command = Score.ofVerb m.rules.fuzzy verb g.synonyms := by
    intro g hg
    unfold score Vocabulary.score
    rw [Vocabulary.get?_of_mem hnodup hg]
    rfl
  rw [mem_eligible]
  constructor
  · rintro ⟨g, hg, hfloor, rfl⟩
    rw [← hscore g hg] at hfloor ⊢
    exact ⟨List.mem_map_of_mem hg, hfloor, rfl⟩
  · rintro ⟨hcommand, hfloor, hc⟩
    obtain ⟨g, hg, hgc⟩ := List.mem_map.1 hcommand
    rw [← hgc, hscore g hg] at hfloor hc
    exact ⟨g, hg, hfloor, hc⟩

/-- **The order of candidates**: by descending confidence, and at the same confidence as the
vocabulary lists their commands. -/
def Outranks (m : Mapper α) : Candidate α → Candidate α → Prop :=
  Grade.RankedBefore (·.confidence)
    fun x y => m.vocabulary.commands.idxOf x.command < m.vocabulary.commands.idxOf y.command

theorem listed_eq_take (hverb : Text.normalize verb ≠ "") (noun : Option String) :
    m.listed verb noun = (m.order verb noun).take (maxAlternatives + 1) := by
  unfold listed order
  rw [candidates_map m noun hverb, List.map_take]

variable [LawfulGrade α]

theorem mem_order {d : String} :
    d ∈ m.order verb noun ↔ ∃ x ∈ m.eligible (Text.normalize verb) noun, x.command = d := by
  unfold order
  simp only [List.mem_map, mem_ranking]

theorem pairwise_outranks (hnodup : m.vocabulary.commands.Nodup) (verb : String)
    (noun : Option String) : (m.ranking verb noun).Pairwise m.Outranks := by
  have hsublist := commands_eligible_sublist m verb noun
  have horder := List.pairwise_map.1 ((Vocabulary.pairwise_idxOf hnodup).sublist hsublist)
  rw [ranking_eq_ranked]
  exact Grade.pairwise_ranked_stable horder

omit [LawfulGrade α] in
theorem Outranks.asymm {x y : Candidate α} (h : m.Outranks x y) : ¬ m.Outranks y x := by
  rintro ⟨hyx, hidx⟩
  exact Nat.lt_asymm (h.2 hyx) (hidx h.1)

/-- **A command stands before another one** if the other is no candidate, or is outranked. -/
theorem idxOf_order_lt_iff (hsound : m.vocabulary.Sound) {x : Candidate α}
    (hx : x ∈ m.eligible (Text.normalize verb) noun) (d : String) :
    (m.order verb noun).idxOf x.command < (m.order verb noun).idxOf d ↔
      ∀ y ∈ m.eligible (Text.normalize verb) noun, y.command = d → m.Outranks x y := by
  have hiff := idxOf_lt_iff_of_pairwise Candidate.command
    (nodup_ranking hsound (Text.normalize verb) noun)
    (pairwise_outranks hsound.nodup (Text.normalize verb) noun)
    (fun _ _ _ _ h => h.asymm) (mem_ranking.2 hx) d
  simp only [mem_ranking] at hiff
  exact hiff

end

/-! ## A score that is raised -/

/-- A mapper that does for a command what another one does, or more: it scores a verb against the
command no lower, and against the others alike. -/
structure Favours (command verb : String) (m m' : Mapper Rat) : Prop where
  rules : m'.rules = m.rules
  catalog : m'.catalog = m.catalog
  commands : m'.vocabulary.commands = m.vocabulary.commands
  score : m.score verb command ≤ m'.score verb command
  others : ∀ c, c ≠ command → m'.score verb c = m.score verb c

variable {m m' : Mapper Rat} {command verb : String} {noun : Option String} {x y : Candidate Rat}

/-- A higher score means no lower confidence, whatever the noun. -/
theorem confidence_penalized_mono {s t : Rat} (h : s ≤ t) (m m' : Mapper Rat)
    (noun : Option String) (command : String) :
    (m.penalized noun (command, s)).confidence ≤ (m'.penalized noun (command, t)).confidence := by
  have hpenalty : (0 : Rat) ≤ nounPenalty := by
    unfold nounPenalty
    norm_num
  unfold penalized
  dsimp only
  split_ifs
  · exact h
  · exact mul_le_mul_of_nonneg_right h hpenalty

namespace Favours

/-- The candidate of the command stays one, with no lower confidence. -/
theorem exists_mem_eligible (h : Favours command verb m m') (hsound : m.vocabulary.Sound)
    (hsound' : m'.vocabulary.Sound) (hx : x ∈ m.eligible verb noun)
    (hcommand : x.command = command) :
    ∃ x' ∈ m'.eligible verb noun, x'.command = command ∧ x.confidence ≤ x'.confidence := by
  obtain ⟨hlisted, hfloor, hpenalized⟩ := (mem_eligible_iff_score hsound.nodup).1 hx
  rw [hcommand] at hlisted hfloor hpenalized
  have hfloor' : ¬ m'.score verb command < m'.rules.reject := by
    rw [h.rules]
    exact not_lt.2 ((not_lt.1 hfloor).trans h.score)
  refine ⟨m'.penalized noun (command, m'.score verb command),
    (mem_eligible_iff_score hsound'.nodup).2 ⟨h.commands ▸ hlisted, hfloor', rfl⟩, rfl, ?_⟩
  rw [hpenalized]
  exact confidence_penalized_mono h.score m m' noun command

/-- The candidates of other commands are those that were there before. -/
theorem mem_eligible (h : Favours command verb m m') (hsound : m.vocabulary.Sound)
    (hsound' : m'.vocabulary.Sound) (hy : y ∈ m'.eligible verb noun) (hne : y.command ≠ command) :
    y ∈ m.eligible verb noun := by
  obtain ⟨hlisted, hfloor, hpenalized⟩ := (mem_eligible_iff_score hsound'.nodup).1 hy
  rw [h.others _ hne] at hfloor hpenalized
  rw [h.rules] at hfloor
  refine (mem_eligible_iff_score hsound.nodup).2 ⟨h.commands ▸ hlisted, hfloor, ?_⟩
  rw [hpenalized]
  unfold penalized
  rw [h.catalog]

/-- What the candidate of the command outranked, it outranks with a higher confidence too. -/
theorem outranks (h : Favours command verb m m') {x' : Candidate Rat}
    (hcommand : x'.command = x.command) (hle : x.confidence ≤ x'.confidence)
    (hxy : m.Outranks x y) : m'.Outranks x' y := by
  obtain ⟨hranked, hfirst⟩ := hxy
  rw [Grade.rankLe_rat] at hranked
  refine ⟨Grade.rankLe_rat.2 (hranked.trans hle), fun hback => ?_⟩
  have hidx := hfirst (Grade.rankLe_rat.2 (hle.trans (Grade.rankLe_rat.1 hback)))
  dsimp only at hidx ⊢
  rw [h.commands, hcommand]
  exact hidx

/-- **The command keeps its place in the order**, or improves it. -/
theorem keepsPlace_order (h : Favours command (Text.normalize verb) m m')
    (hsound : m.vocabulary.Sound) (hsound' : m'.vocabulary.Sound) (noun : Option String) :
    KeepsPlace command (m.order verb noun) (m'.order verb noun) := by
  refine KeepsPlace.of_ahead (nodup_ranking hsound' _ noun) (fun hmem => ?_) fun d hd => ?_
  · obtain ⟨x, hx, hcommand⟩ := mem_order.1 hmem
    obtain ⟨x', hx', hcommand', -⟩ := h.exists_mem_eligible hsound hsound' hx hcommand
    exact mem_order.2 ⟨x', hx', hcommand'⟩
  · have hne : command ≠ d := by
      rintro rfl
      exact Nat.lt_irrefl _ hd
    have hmem : command ∈ m.order verb noun :=
      List.idxOf_lt_length_iff.1 (lt_of_lt_of_le hd List.idxOf_le_length)
    obtain ⟨x, hx, hcommand⟩ := mem_order.1 hmem
    obtain ⟨x', hx', hcommand', hle⟩ := h.exists_mem_eligible hsound hsound' hx hcommand
    rw [← hcommand] at hd
    have houtranked := (idxOf_order_lt_iff hsound hx d).1 hd
    rw [← hcommand']
    refine (idxOf_order_lt_iff hsound' hx' d).2 fun y hy hyd => ?_
    have hother : y.command ≠ command := fun heq => hne (heq.symm.trans hyd)
    exact h.outranks (hcommand'.trans hcommand.symm) hle
      (houtranked y (h.mem_eligible hsound hsound' hy hother) hyd)

end Favours

/-- A place that is kept in the order is kept among the commands that the verb is mapped to. -/
theorem keepsPlace_listed (h : KeepsPlace command (m.order verb noun) (m'.order verb noun)) :
    KeepsPlace command (m.listed verb noun) (m'.listed verb noun) := by
  by_cases hverb : Text.normalize verb = ""
  · refine KeepsPlace.of_not_mem ?_
    unfold listed
    rw [candidates_map_eq_nil hverb]
    exact List.not_mem_nil
  · rw [listed_eq_take hverb, listed_eq_take hverb]
    exact h.take _

/-! ## One more synonym -/

variable {synonym : String} {w : Rat}

/-- **A synonym favours its command** for every verb but itself. -/
theorem favours_addSynonym (hsound : m.vocabulary.Sound)
    (hlisted : command ∈ m.vocabulary.commands)
    (hraised : ∀ x, m.vocabulary.weight? command (Text.normalize synonym) = some x →
      x ≤ Grade.clamp w) (hne : Text.normalize verb ≠ Text.normalize synonym) :
    Favours command verb m (m.addSynonym command synonym (some w)) where
  rules := rfl
  catalog := rfl
  commands := by
    unfold addSynonym Vocabulary.add
    rw [Vocabulary.commands_update, if_pos (Vocabulary.contains_iff.2 hlisted)]
  score := Vocabulary.score_le_score_add hsound hraised hne m.rules.fuzzy
  others _ hc := Vocabulary.score_add_of_ne hc m.rules.fuzzy

/-- **A synonym makes no other verb worse.** A command gains a synonym, or one of its synonyms a
weight that is not lower. Every other verb then scores against the command as much as before, or
more, and the same if it is a synonym of it; the scores against other commands stay as they are. So
the command keeps its place, or improves it, in the order of all candidates and among those that the
verb is mapped to. -/
theorem addSynonym_keeps_place (es : List (Vocabulary.Edit Rat)) (catalog : Catalog)
    (rules : MapRules Rat) (command synonym : String) (w : Rat)
    (hraised : ∀ x, (Vocabulary.ofEdits es).weight? command (Text.normalize synonym) = some x →
      x ≤ Grade.clamp w) :
    let before : Mapper Rat := ⟨.ofEdits es, catalog, rules⟩
    let after := before.addSynonym command synonym (some w)
    (∀ verb, Text.normalize verb ≠ Text.normalize synonym →
        before.score verb command ≤ after.score verb command ∧
        ∀ x, before.vocabulary.weight? command (Text.normalize verb) = some x →
          after.score verb command = before.score verb command) ∧
      (∀ c, c ≠ command → ∀ verb, after.score verb c = before.score verb c) ∧
      ∀ verb noun, Text.normalize verb ≠ Text.normalize synonym →
        KeepsPlace command (before.order verb noun) (after.order verb noun) ∧
          KeepsPlace command (before.listed verb noun) (after.listed verb noun) := by
  intro before after
  have hsound : before.vocabulary.Sound := Vocabulary.sound_ofEdits es
  have hsound' : after.vocabulary.Sound := hsound.add synonym w
  refine ⟨fun verb hne => ⟨?_, fun x hx => ?_⟩, fun c hc verb => ?_, fun verb noun hne => ?_⟩
  · exact Vocabulary.score_le_score_add hsound hraised hne rules.fuzzy
  · exact Vocabulary.score_add_of_weight? hx hne rules.fuzzy
  · exact Vocabulary.score_add_of_ne hc rules.fuzzy
  · have horder : KeepsPlace command (before.order verb noun) (after.order verb noun) := by
      by_cases hlisted : command ∈ before.vocabulary.commands
      · have hnormal : Text.normalize (Text.normalize verb) ≠ Text.normalize synonym := by
          rwa [Text.normalize_normalize]
        exact (favours_addSynonym hsound hlisted hraised hnormal).keepsPlace_order hsound hsound'
          noun
      · -- a new command has no place to keep
        refine KeepsPlace.of_not_mem fun hmem => hlisted ?_
        obtain ⟨x, hx, hcommand⟩ := mem_order.1 hmem
        exact hcommand ▸ ((mem_eligible_iff_score hsound.nodup).1 hx).1
    exact ⟨horder, keepsPlace_listed horder⟩

/-- A synonym that the verb resembles brings its command to the front. -/
theorem addSynonym_keeps_place_listi :
    let before : Mapper Rat :=
      ⟨.ofEdits [.add "search-content" "listing" 95, .add "list-files" "list" 90], .standard,
        .standard⟩
    let after := before.addSynonym "list-files" " Listi" (some 100)
    before.vocabulary.weight? "list-files" (Text.normalize " Listi") = none ∧
      Text.normalize "LISTIN" ≠ Text.normalize " Listi" ∧
      KeepsPlace "list-files" (before.listed "LISTIN" none) (after.listed "LISTIN" none) ∧
      before.listed "LISTIN" none = ["search-content", "list-files"] ∧
      after.listed "LISTIN" none = ["list-files", "search-content"] := by
  intro before after
  have hnew : before.vocabulary.weight? "list-files" (Text.normalize " Listi") = none := by
    decide +kernel
  have hne : Text.normalize "LISTIN" ≠ Text.normalize " Listi" := by decide +kernel
  have h := addSynonym_keeps_place
    [.add "search-content" "listing" 95, .add "list-files" "list" 90] .standard .standard
    "list-files" " Listi" 100 fun x hx => by
      rw [show (Vocabulary.ofEdits _).weight? _ _ = none from hnew] at hx
      cases hx
  exact ⟨hnew, hne, (h.2.2 "LISTIN" none hne).2, by decide +kernel, by decide +kernel⟩

end Mapper

end CommandDesk
