import CommandDesk.Proofs.Grade.FloatOrder
import CommandDesk.Proofs.Synonym.Weight
import Mathlib.Data.List.Induction

/-!
# What a history of edits leaves behind

A vocabulary can be read off the edits that led to it, without running them. Its
commands are those that were put on the list and not taken off it since, in the
order in which they came (`commands_ofEdits`). The weight of a command for a
synonym is what the last edit that decides on it decided (`weight?_ofEdits`).
Together with what every edit keeps this says what a vocabulary holds after any
history (`history_ofEdits`).
-/

namespace CommandDesk

namespace Vocabulary

variable {α : Type} [Grade α]

namespace Edit

/-- The command that an edit puts on the list, if it is not there yet. -/
def listed? : Edit α → Option String
  | .register command _ | .add command _ _ => some command
  | .removeSynonym _ _ | .removeCommand _ | .clear => none

/-- Whether an edit takes a command off the list. -/
def drops (command : String) : Edit α → Bool
  | .removeCommand c => c = command
  | .clear => true
  | .register _ _ | .add _ _ _ | .removeSynonym _ _ => false

end Edit

/-- The commands that edits put on the list and no later one takes off it, once for each edit. -/
def standing : List (Edit α) → List String
  | [] => []
  | e :: es => (e.listed?.filter fun c => !es.any (·.drops c)).toList ++ standing es

/-- The weight that the last edit to decide on it gave a command for a synonym. -/
def decided? (es : List (Edit α)) (command synonym : String) : Option α :=
  (es.reverse.findSome? (·.verdict? command synonym)).getD none

theorem ofEdits_append (es : List (Edit α)) (e : Edit α) :
    ofEdits (es ++ [e]) = (ofEdits es).edit e := by
  unfold ofEdits
  rw [List.foldl_append]
  rfl

/-! ## Weights -/

/-- **The weight of a synonym** is what the last edit that decides on it decided. -/
theorem weight?_ofEdits (es : List (Edit α)) (command synonym : String) :
    (ofEdits es).weight? command synonym = decided? es command synonym := by
  induction es using List.reverseRecOn with
  | nil => rfl
  | append_singleton es e ih =>
    rw [ofEdits_append, weight?_edit, ih]
    unfold decided?
    rw [List.reverse_append, List.reverse_singleton, List.singleton_append, List.findSome?_cons]
    cases e.verdict? command synonym with
    | none => rfl
    | some decision => rfl

/-! ## Commands -/

/-- A new name counts only if it is not there already. -/
theorem eraseDups_concat (l : List String) (a : String) :
    (l ++ [a]).eraseDups = if a ∈ l then l.eraseDups else l.eraseDups ++ [a] := by
  rw [List.eraseDups_append]
  by_cases ha : a ∈ l
  · simp [ha, List.removeAll]
  · simp [ha, List.removeAll, List.eraseDups_cons]

theorem eraseDups_filter (p : String → Bool) (l : List String) :
    (l.filter p).eraseDups = l.eraseDups.filter p := by
  induction l using List.reverseRecOn with
  | nil => rfl
  | append_singleton l a ih =>
    rw [List.filter_append, eraseDups_concat]
    by_cases hp : p a = true
    · rw [List.filter_cons_of_pos hp, List.filter_nil, eraseDups_concat, ih]
      by_cases ha : a ∈ l
      · simp [ha, hp]
      · simp [ha, hp]
    · rw [List.filter_cons_of_neg hp, List.filter_nil, List.append_nil, ih]
      by_cases ha : a ∈ l
      · rw [if_pos ha]
      · rw [if_neg ha, List.filter_append, List.filter_cons_of_neg hp, List.filter_nil,
          List.append_nil]

omit [Grade α] in
theorem standing_append (es : List (Edit α)) (e : Edit α) :
    standing (es ++ [e]) = (standing es).filter (fun c => !e.drops c) ++ e.listed?.toList := by
  induction es with
  | nil => cases h : e.listed? <;> simp [standing, h]
  | cons d es ih =>
    rw [List.cons_append, standing, ih, standing, List.filter_append, ← List.append_assoc]
    congr 2
    cases d.listed? with
    | none => rfl
    | some c =>
      by_cases hes : es.any (·.drops c) = true
      · simp [Option.filter, hes]
      · by_cases he : e.drops c = true
        · simp [Option.filter, he]
        · simp [Option.filter, hes, he]

/-- What an edit makes of the list of commands: some are taken off, and one may be put at the
end. -/
theorem commands_edit (v : Vocabulary α) (e : Edit α) :
    (v.edit e).commands =
      (e.listed?.toList).foldl (fun l c => if c ∈ l then l else l ++ [c])
        (v.commands.filter fun c => !e.drops c) := by
  have hkeep : v.commands.filter (fun _ => !false) = v.commands := List.filter_eq_self.2 (by simp)
  have hupdate : ∀ (c : String) (f : Synonyms α → Synonyms α), (v.update c f).commands =
      if c ∈ v.commands then v.commands else v.commands ++ [c] := by
    intro c f
    rw [commands_update]
    by_cases hc : c ∈ v.commands
    · rw [if_pos hc, if_pos (contains_iff.2 hc)]
    · rw [if_neg hc, if_neg fun h => hc (contains_iff.1 h)]
  cases e with
  | register c given =>
    have hcommands := hupdate c
      fun t => t.insertAll (given.map fun s => (Text.normalize s.1, Grade.clamp s.2))
    unfold Edit.listed? Edit.drops
    dsimp only
    rw [hkeep]
    exact hcommands
  | add c synonym w =>
    have hcommands := hupdate c fun t => t.insert (Text.normalize synonym) (Grade.clamp w)
    unfold Edit.listed? Edit.drops
    dsimp only
    rw [hkeep]
    exact hcommands
  | removeSynonym c synonym =>
    have hcommands := commands_removeSynonym v c synonym
    unfold Edit.listed? Edit.drops
    dsimp only
    rw [hkeep]
    exact hcommands
  | removeCommand c =>
    unfold Vocabulary.edit removeCommand commands
    dsimp only
    rw [List.filter_map]
    congr 2
    funext g
    by_cases hg : g.command = c
    · simp [Edit.drops, hg]
    · have hc : ¬ c = g.command := fun h => hg h.symm
      simp [Edit.drops, hg, hc]
  | clear =>
    unfold Vocabulary.edit Edit.drops Edit.listed?
    simp [commands, empty]

/-- **The commands of a vocabulary** are those that were put on the list and not taken off it
since, in the order in which they came. -/
theorem commands_ofEdits (es : List (Edit α)) :
    (ofEdits es).commands = (standing es).eraseDups := by
  induction es using List.reverseRecOn with
  | nil => rfl
  | append_singleton es e ih =>
    rw [ofEdits_append, commands_edit, standing_append, ih, ← eraseDups_filter]
    cases e.listed? with
    | none => simp
    | some c =>
      have hmem : c ∈ ((standing es).filter fun c => !e.drops c).eraseDups ↔
          c ∈ (standing es).filter fun c => !e.drops c := List.mem_eraseDups
      rw [Option.toList_some, eraseDups_concat]
      by_cases hc : c ∈ (standing es).filter fun c => !e.drops c
      · rw [if_pos hc]
        exact if_pos (hmem.2 hc)
      · rw [if_neg hc]
        exact if_neg fun h => hc (hmem.1 h)

/-- A command that comes back stands at the end. -/
example : (ofEdits ([.register "a" [], .register "b" [], .removeCommand "a", .register "a" []] :
    List (Edit Float))).commands = ["b", "a"] := by
  decide

/-! ## The history of a vocabulary -/

/-- **What a vocabulary holds after any history of edits.** Every command is listed once, in the
order in which those that still stand came first; every synonym is in normal form, with a number
between zero and one hundred as its weight, which is what the last edit that decides on it
decided; and looking a synonym up lists the commands that have it, best first, and of one weight
in the order of the vocabulary. -/
theorem history_ofEdits (es : List (Edit Float)) :
    let v := ofEdits es
    v.commands.Nodup ∧
      (∀ g ∈ v.groups, ∀ e ∈ g.synonyms.entries,
        Text.normalize e.1 = e.1 ∧ Grade.isNumber e.2 = true ∧
          (0.0 : Float) ≤ e.2 ∧ e.2 ≤ (100.0 : Float)) ∧
      v.commands = (standing es).eraseDups ∧
      (∀ command synonym, v.weight? command synonym = decided? es command synonym) ∧
      ∀ synonym,
        (∀ c w, (c, w) ∈ v.withSynonym synonym ↔
          v.weight? c (Text.normalize synonym) = some w) ∧
        ((v.withSynonym synonym).map (·.1)).Nodup ∧
        (v.withSynonym synonym).Pairwise
          (Grade.RankedBefore (·.2) fun x y => v.commands.idxOf x.1 < v.commands.idxOf y.1) := by
  intro v
  have hsound : v.Sound := sound_ofEdits es
  refine ⟨hsound.nodup, fun g hg e he => ?_, commands_ofEdits es, weight?_ofEdits es,
    ordered_withSynonym hsound.nodup⟩
  have hsettled := hsound.settled g hg e he
  obtain ⟨w, hw⟩ := hsettled.clamped
  obtain ⟨hlow, hhigh⟩ := Grade.float_clamp_bounds w
  rw [← hw] at hlow hhigh
  have hnumber : Grade.isNumber e.2 = true := by
    have hnan := Grade.isNaN_of_float_le hlow
    exact congrArg (!·) hnan
  exact ⟨hsettled.normal, hnumber, hlow, hhigh⟩

end Vocabulary

end CommandDesk
