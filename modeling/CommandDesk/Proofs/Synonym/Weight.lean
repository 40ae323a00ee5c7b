import CommandDesk.Proofs.Ranking
import CommandDesk.Proofs.Synonym.Edits

/-!
# Weights of synonyms

A vocabulary is looked at through the weight of a command for a synonym
(`Vocabulary.weight?`). An edit decides on some of these weights and leaves the
others as they are (`weight?_edit`). Where no command is listed twice, looking a
synonym up lists every command that has a weight for it once, best first, and
commands of one weight in the order of the vocabulary (`ordered_withSynonym`).
-/

namespace CommandDesk

namespace Vocabulary

variable {α : Type} [Grade α]

/-- The weight of a command for a synonym, as it is written in the table of the command. -/
def weight? (v : Vocabulary α) (command synonym : String) : Option α :=
  (v.get? command).bind (·.get? synonym)

/-- What an edit decides about the weight of a command for a synonym in normal form: to give it
one, to take it away, or nothing. -/
def Edit.verdict? (command synonym : String) : Edit α → Option (Option α)
  | .register c given =>
    if c = command then
      (given.reverse.find? fun s => Text.normalize s.1 = synonym).map
        fun s => some (Grade.clamp s.2)
    else none
  | .add c s w =>
    if c = command ∧ Text.normalize s = synonym then some (some (Grade.clamp w)) else none
  | .removeSynonym c s => if c = command ∧ Text.normalize s = synonym then some none else none
  | .removeCommand c => if c = command then some none else none
  | .clear => some none

variable {v : Vocabulary α} {command c : String}

/-! ## The synonyms of a command -/

omit [Grade α] in
theorem find?_changeFirst (command c : String) (f : Synonyms α → Synonyms α)
    (gs : List (Group α)) :
    (changeFirst (·.command = command) (fun g => { g with synonyms := f g.synonyms }) gs).find?
        (·.command = c) =
      (gs.find? (·.command = c)).map fun g =>
        if c = command then { g with synonyms := f g.synonyms } else g := by
  induction gs with
  | nil => rfl
  | cons g gs ih =>
    unfold changeFirst
    by_cases hg : g.command = command
    · by_cases hc : c = command
      · simp [hg, hc]
      · have hgc : ¬ g.command = c := fun h => hc (h ▸ hg)
        have hcommand : ¬ command = c := fun h => hc h.symm
        simp [hg, hc, hcommand]
    · by_cases hgc : g.command = c
      · have hc : ¬ c = command := fun h => hg (hgc.trans h)
        simp [hgc, hc]
      · simp [hg, hgc, ih]

omit [Grade α] in
theorem get?_eq_none (h : ¬ v.contains c = true) : v.get? c = none := by
  have hnone : v.groups.find? (·.command = c) = none := by
    rw [List.find?_eq_none]
    intro g hg hc
    exact h (contains_iff.2 (List.mem_map.2 ⟨g, hg, of_decide_eq_true hc⟩))
  unfold get?
  rw [hnone]
  rfl

omit [Grade α] in
theorem exists_get?_of_contains (h : v.contains c = true) : ∃ t, v.get? c = some t := by
  obtain ⟨g, hg, hc⟩ := List.mem_map.1 (contains_iff.1 h)
  have hsome : (v.groups.find? (·.command = c)).isSome = true := by
    rw [List.find?_isSome]
    exact ⟨g, hg, decide_eq_true hc⟩
  obtain ⟨found, hfound⟩ := Option.isSome_iff_exists.1 hsome
  refine ⟨found.synonyms, ?_⟩
  unfold get?
  rw [hfound]
  rfl

omit [Grade α] in
/-- An update changes the synonyms of its command and of no other. -/
theorem get?_update (v : Vocabulary α) (command c : String) (f : Synonyms α → Synonyms α) :
    (v.update command f).get? c =
      if c = command then some (f ((v.get? command).getD .empty)) else v.get? c := by
  unfold update
  by_cases hlisted : v.contains command = true
  · rw [if_pos hlisted]
    unfold get?
    rw [find?_changeFirst, Option.map_map]
    split
    · rename_i hc
      obtain ⟨t, ht⟩ := exists_get?_of_contains hlisted
      unfold get? at ht
      obtain ⟨g, hg, rfl⟩ := Option.map_eq_some_iff.1 ht
      rw [hc, hg]
      rfl
    · congr 1
  · rw [if_neg hlisted, get?_eq_none hlisted]
    unfold get?
    rw [List.find?_append]
    split
    · rename_i hc
      have hnone : v.groups.find? (·.command = c) = none := by
        have hget := get?_eq_none (hc ▸ hlisted : ¬ v.contains c = true)
        exact Option.map_eq_none_iff.1 hget
      rw [hnone, hc]
      simp
    · rename_i hc
      have hcommand : ¬ command = c := fun h => hc h.symm
      simp [hcommand]

omit [Grade α] in
theorem get?_removeSynonym (v : Vocabulary α) (command c synonym : String) :
    (v.removeSynonym command synonym).1.get? c =
      (v.get? c).map fun t => if c = command then t.erase (Text.normalize synonym) else t := by
  have hfind := find?_changeFirst command c (fun t => t.erase (Text.normalize synonym)) v.groups
  unfold removeSynonym get?
  dsimp only
  rw [hfind, Option.map_map, Option.map_map]
  congr 1
  funext g
  by_cases hc : c = command
  · simp [hc]
  · simp [hc]

omit [Grade α] in
theorem get?_removeCommand (v : Vocabulary α) (command c : String) :
    (v.removeCommand command).1.get? c = if c = command then none else v.get? c := by
  unfold removeCommand get?
  rw [List.find?_filter]
  split
  · rename_i hc
    rw [Option.map_eq_none_iff, List.find?_eq_none]
    simp [hc]
  · rename_i hc
    congr 2
    funext g
    by_cases hg : g.command = c
    · simp [hg, hc]
    · simp [hg]

/-! ## Weights -/

omit [Grade α] in
theorem weight?_update (v : Vocabulary α) (command c synonym : String)
    (f : Synonyms α → Synonyms α) :
    (v.update command f).weight? c synonym =
      if c = command then (f ((v.get? command).getD .empty)).get? synonym
      else v.weight? c synonym := by
  unfold weight?
  rw [get?_update]
  split
  · rfl
  · rfl

omit [Grade α] in
/-- A command that is not listed has the weights of an empty table. -/
theorem get?_getD_empty (v : Vocabulary α) (command synonym : String) :
    ((v.get? command).getD .empty).get? synonym = v.weight? command synonym := by
  unfold weight?
  cases v.get? command with
  | none => exact Table.get?_empty synonym
  | some t => rfl

/-- Normal forms with clamped weights are found by the normal form. -/
theorem find?_map_normalize (given : List (String × α)) (synonym : String) :
    (given.map fun (a, w) => (Text.normalize a, Grade.clamp w)).reverse.find? (·.1 = synonym) =
      (given.reverse.find? fun s => Text.normalize s.1 = synonym).map
        fun s => (Text.normalize s.1, Grade.clamp s.2) := by
  rw [← List.map_reverse, List.find?_map]
  simp only [Function.comp_def]

/-- **An edit decides on weights** or leaves them as they are. -/
theorem weight?_edit (v : Vocabulary α) (e : Edit α) (command synonym : String) :
    (v.edit e).weight? command synonym =
      (e.verdict? command synonym).getD (v.weight? command synonym) := by
  cases e with
  | register c given =>
    rw [Vocabulary.edit, register, weight?_update, Edit.verdict?]
    by_cases hc : c = command
    · subst hc
      rw [if_pos rfl, if_pos rfl, Table.get?_insertAll, find?_map_normalize, get?_getD_empty]
      cases given.reverse.find? fun s => decide (Text.normalize s.1 = synonym) with
      | none => rfl
      | some s => rfl
    · rw [if_neg fun h => hc h.symm, if_neg hc]
      rfl
  | add c s w =>
    rw [Vocabulary.edit, add, weight?_update, Edit.verdict?]
    by_cases hc : c = command
    · subst hc
      rw [if_pos rfl, Table.get?_insert, get?_getD_empty]
      by_cases hs : Text.normalize s = synonym
      · rw [if_pos hs.symm, if_pos ⟨rfl, hs⟩]
        rfl
      · rw [if_neg fun h => hs h.symm, if_neg fun h => hs h.2]
        rfl
    · rw [if_neg fun h => hc h.symm, if_neg fun h => hc h.1]
      rfl
  | removeSynonym c s =>
    unfold Vocabulary.edit weight? Edit.verdict?
    dsimp only
    rw [get?_removeSynonym, Option.bind_map, Function.comp_def]
    by_cases hc : c = command
    · subst hc
      by_cases hs : Text.normalize s = synonym
      · rw [if_pos ⟨rfl, hs⟩]
        simp [Table.get?_erase, hs]
      · have hs' : ¬ synonym = Text.normalize s := fun h => hs h.symm
        rw [if_neg fun h => hs h.2]
        simp [Table.get?_erase, hs']
    · have hc' : ¬ command = c := fun h => hc h.symm
      rw [if_neg fun h => hc h.1]
      simp [hc']
  | removeCommand c =>
    unfold Vocabulary.edit weight? Edit.verdict?
    dsimp only
    rw [get?_removeCommand]
    by_cases hc : c = command
    · rw [if_pos hc, if_pos hc.symm]
      rfl
    · rw [if_neg hc, if_neg fun h => hc h.symm]
      rfl
  | clear => rfl

/-! ## The commands of a synonym -/

omit [Grade α] in
/-- Where no command is listed twice, every group is found under its command. -/
theorem get?_of_mem (hnodup : v.commands.Nodup) {g : Group α} (hg : g ∈ v.groups) :
    v.get? g.command = some g.synonyms := by
  obtain ⟨t, ht⟩ := exists_get?_of_contains (contains_iff.2 (List.mem_map_of_mem hg))
  obtain ⟨found, hfound, rfl⟩ := Option.map_eq_some_iff.1 ht
  have hcommand : found.command = g.command := by simpa using List.find?_some hfound
  have hsame : found = g :=
    List.inj_on_of_nodup_map hnodup (List.mem_of_find?_eq_some hfound) hg hcommand
  rw [ht, hsame]

/-- The commands that have a weight for a synonym, in the order of the vocabulary. -/
def holders (v : Vocabulary α) (synonym : String) : List (String × α) :=
  v.groups.filterMap fun g => (g.synonyms.get? synonym).map (g.command, ·)

omit [Grade α] in
theorem mem_holders (hnodup : v.commands.Nodup) {synonym : String} {w : α} :
    (c, w) ∈ v.holders synonym ↔ v.weight? c synonym = some w := by
  unfold holders weight?
  rw [List.mem_filterMap]
  constructor
  · rintro ⟨g, hg, hw⟩
    obtain ⟨x, hx, heq⟩ := Option.map_eq_some_iff.1 hw
    obtain ⟨rfl, rfl⟩ := Prod.mk.inj heq
    rw [get?_of_mem hnodup hg]
    exact hx
  · intro h
    obtain ⟨t, ht, hw⟩ := Option.bind_eq_some_iff.1 h
    obtain ⟨g, hg, rfl⟩ := Option.map_eq_some_iff.1 ht
    have hc : g.command = c := by simpa using List.find?_some hg
    exact ⟨g, List.mem_of_find?_eq_some hg, by rw [hw, hc]; rfl⟩

omit [Grade α] in
theorem commands_holders_sublist (v : Vocabulary α) (synonym : String) :
    ((v.holders synonym).map (·.1)).Sublist v.commands := by
  unfold holders commands
  induction v.groups with
  | nil => exact List.Sublist.slnil
  | cons g gs ih =>
    rw [List.filterMap_cons, List.map_cons]
    cases g.synonyms.get? synonym with
    | none => exact ih.cons g.command
    | some w => exact ih.cons_cons g.command

/-- Where nothing is listed twice, what comes first has the lower index. -/
theorem pairwise_idxOf {l : List String} (h : l.Nodup) :
    l.Pairwise fun a b => l.idxOf a < l.idxOf b := by
  rw [List.pairwise_iff_getElem]
  intro i j hi hj hij
  rw [h.idxOf_getElem i hi, h.idxOf_getElem j hj]
  exact hij

/-- **Looking a synonym up** lists the commands that have a weight for its normal form, each once,
by descending weight, and those of one weight in the order of the vocabulary. -/
theorem ordered_withSynonym [LawfulGrade α] (hnodup : v.commands.Nodup) (synonym : String) :
    (∀ c w, (c, w) ∈ v.withSynonym synonym ↔
        v.weight? c (Text.normalize synonym) = some w) ∧
      ((v.withSynonym synonym).map (·.1)).Nodup ∧
      (v.withSynonym synonym).Pairwise
        (Grade.RankedBefore (·.2) fun x y => v.commands.idxOf x.1 < v.commands.idxOf y.1) := by
  have hranked : v.withSynonym synonym =
      Grade.ranked (·.2) (v.holders (Text.normalize synonym)) := rfl
  have hsublist := commands_holders_sublist v (Text.normalize synonym)
  have horder := List.pairwise_map.1 ((pairwise_idxOf hnodup).sublist hsublist)
  rw [hranked]
  refine ⟨fun c w => ?_, ?_, Grade.pairwise_ranked_stable horder⟩
  · rw [Grade.mem_ranked]
    exact mem_holders hnodup
  · exact ((Grade.ranked_perm.map _).nodup_iff).2 (hnodup.sublist hsublist)

end Vocabulary

end CommandDesk
