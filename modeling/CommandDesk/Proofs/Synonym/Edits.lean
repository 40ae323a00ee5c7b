import CommandDesk.Proofs.Table
import CommandDesk.Proofs.Text.Normal
import CommandDesk.Synonym.Vocabulary
import Mathlib.Data.List.Nodup

/-!
# Vocabularies that are built by edits

A vocabulary comes about by registering, adding and removing, in any order.
Every edit keeps what mapping relies on (`Vocabulary.Sound`): a command is
listed once, its synonyms are in normal form, and their weights are clamped. So
a vocabulary reached by edits has it too (`sound_ofEdits`). Removing answers whether
there was something to remove, and changes nothing where there was not.
-/

namespace CommandDesk

namespace Vocabulary

variable {α : Type} [Grade α]

/-- A change of a vocabulary. -/
inductive Edit (α : Type) where
  | register (command : String) (synonyms : List (String × α))
  | add (command synonym : String) (weight : α)
  | removeSynonym (command synonym : String)
  | removeCommand (command : String)
  | clear

/-- Change a vocabulary. -/
def edit (v : Vocabulary α) : Edit α → Vocabulary α
  | .register command synonyms => v.register command synonyms
  | .add command synonym weight => v.add command synonym weight
  | .removeSynonym command synonym => (v.removeSynonym command synonym).1
  | .removeCommand command => (v.removeCommand command).1
  | .clear => empty

/-- The vocabulary that edits lead to, from the empty one. -/
def ofEdits (es : List (Edit α)) : Vocabulary α := es.foldl edit empty

/-- A synonym with its weight as edits put them into a table. -/
structure Settled (e : String × α) : Prop where
  normal : Text.normalize e.1 = e.1
  clamped : ∃ w, e.2 = Grade.clamp w

/-- **What every edit keeps.** -/
structure Sound (v : Vocabulary α) : Prop where
  nodup : v.commands.Nodup
  settled : ∀ g ∈ v.groups, ∀ e ∈ g.synonyms.entries, Settled e

variable {v : Vocabulary α} {command : String}

/-! ## Changing one entry -/

omit [Grade α] in
theorem map_changeFirst {β γ : Type} {p : β → Bool} {f : β → β} {key : β → γ}
    (hf : ∀ b, key (f b) = key b) (bs : List β) :
    (changeFirst p f bs).map key = bs.map key := by
  induction bs with
  | nil => rfl
  | cons b bs ih =>
    unfold changeFirst
    split
    · rw [List.map_cons, List.map_cons, hf]
    · rw [List.map_cons, List.map_cons, ih]

omit [Grade α] in
/-- Seen through `k`, changing the first entry is changing the first of what is seen. -/
theorem map_changeFirst_comm {β γ : Type} {p : β → Bool} {q : γ → Bool} {f : β → β} {g : γ → γ}
    {k : β → γ} (hp : ∀ b, q (k b) = p b) (hf : ∀ b, k (f b) = g (k b)) (bs : List β) :
    (changeFirst p f bs).map k = changeFirst q g (bs.map k) := by
  induction bs with
  | nil => rfl
  | cons b bs ih =>
    rw [changeFirst, List.map_cons, changeFirst, hp]
    split
    · rw [List.map_cons, hf]
    · rw [List.map_cons, ih]

omit [Grade α] in
/-- Where the first entry stays as it is, all do. -/
theorem changeFirst_eq_self {β : Type} {p : β → Bool} {f : β → β} {bs : List β}
    (h : ∀ b, bs.find? p = some b → f b = b) : changeFirst p f bs = bs := by
  induction bs with
  | nil => rfl
  | cons b bs ih =>
    unfold changeFirst
    split
    · rename_i hb
      rw [h b (List.find?_cons_of_pos hb)]
    · rename_i hb
      rw [ih fun c hc => h c (by rwa [List.find?_cons_of_neg hb])]

theorem mem_changeFirst {β : Type} {p : β → Bool} {f : β → β} {bs : List β} {b : β}
    (h : b ∈ changeFirst p f bs) : b ∈ bs ∨ ∃ d ∈ bs, p d = true ∧ b = f d := by
  induction bs with
  | nil => exact .inl h
  | cons d ds ih =>
    unfold changeFirst at h
    split at h
    · rename_i hp
      rcases List.mem_cons.1 h with rfl | h
      · exact .inr ⟨d, List.mem_cons_self, hp, rfl⟩
      · exact .inl (List.mem_cons_of_mem _ h)
    · rcases List.mem_cons.1 h with rfl | h
      · exact .inl List.mem_cons_self
      · rcases ih h with h | ⟨c, hc, hpc, rfl⟩
        · exact .inl (List.mem_cons_of_mem _ h)
        · exact .inr ⟨c, List.mem_cons_of_mem _ hc, hpc, rfl⟩

omit [Grade α] in
theorem contains_iff : v.contains command = true ↔ command ∈ v.commands := by
  simp [contains, commands]

omit [Grade α] in
/-- An update keeps the order of the commands and puts a new one last. -/
theorem commands_update (f : Synonyms α → Synonyms α) :
    (v.update command f).commands =
      if v.contains command then v.commands else v.commands ++ [command] := by
  unfold update
  split
  · have hkey : ∀ g : Group α, Group.command { g with synonyms := f g.synonyms } = g.command :=
      fun _ => rfl
    exact map_changeFirst hkey v.groups
  · simp [commands]

omit [Grade α] in
/-- An update lists no command twice. -/
theorem nodup_update (h : v.commands.Nodup) (f : Synonyms α → Synonyms α) :
    (v.update command f).commands.Nodup := by
  rw [commands_update]
  split
  · exact h
  · rename_i hnew
    rw [contains_iff] at hnew
    exact List.nodup_append.2
      ⟨h, List.nodup_singleton _, fun c hc d hd => by
        rw [List.mem_singleton.1 hd]
        rintro rfl
        exact hnew hc⟩

omit [Grade α] in
/-- An update changes no group but that of its command. -/
theorem mem_update {f : Synonyms α → Synonyms α} {g : Group α}
    (h : g ∈ (v.update command f).groups) :
    g ∈ v.groups ∨ ∃ t, (t = .empty ∨ ⟨command, t⟩ ∈ v.groups) ∧ g = ⟨command, f t⟩ := by
  unfold update at h
  split at h
  · rcases mem_changeFirst h with h | ⟨⟨c, t⟩, hd, hc, rfl⟩
    · exact .inl h
    · have hc : c = command := by simpa using hc
      subst hc
      exact .inr ⟨t, .inr hd, rfl⟩
  · rcases List.mem_append.1 h with h | h
    · exact .inl h
    · exact .inr ⟨.empty, .inl rfl, List.mem_singleton.1 h⟩

/-! ## What edits keep -/

theorem settled_normalize (synonym : String) (w : α) :
    Settled (Text.normalize synonym, Grade.clamp w) :=
  ⟨Text.normalize_normalize synonym, w, rfl⟩

theorem sound_empty : (empty : Vocabulary α).Sound :=
  ⟨List.nodup_nil, fun _ hg => absurd hg List.not_mem_nil⟩

/-- **An update keeps a vocabulary sound** if it adds none but settled entries. -/
theorem Sound.update (h : v.Sound) {f : Synonyms α → Synonyms α}
    (hf : ∀ t : Synonyms α, ∀ e ∈ (f t).entries, Settled e ∨ e ∈ t.entries) :
    (v.update command f).Sound := by
  refine ⟨nodup_update h.nodup f, fun g hg e he => ?_⟩
  rcases mem_update hg with hg | ⟨t, ht, rfl⟩
  · exact h.settled g hg e he
  · -- an entry that is not new was there before the update
    rcases hf t e he with he | he
    · exact he
    · rcases ht with rfl | ht
      · exact absurd he List.not_mem_nil
      · exact h.settled _ ht e he

theorem Sound.register (h : v.Sound) (synonyms : List (String × α)) :
    (v.register command synonyms).Sound := by
  refine h.update fun t e he => ?_
  rcases Table.mem_insertAll he with he | he
  · obtain ⟨⟨a, w⟩, -, rfl⟩ := List.mem_map.1 he
    exact .inl (settled_normalize a w)
  · exact .inr he

theorem Sound.add (h : v.Sound) (synonym : String) (w : α) : (v.add command synonym w).Sound := by
  refine h.update fun t e he => ?_
  rcases Table.mem_insert he with rfl | he
  · exact .inl (settled_normalize synonym w)
  · exact .inr he

omit [Grade α] in
theorem commands_removeSynonym (v : Vocabulary α) (command synonym : String) :
    (v.removeSynonym command synonym).1.commands = v.commands := by
  have hkey : ∀ g : Group α,
      Group.command { g with synonyms := g.synonyms.erase (Text.normalize synonym) } = g.command :=
    fun _ => rfl
  exact map_changeFirst hkey v.groups

theorem Sound.removeSynonym (h : v.Sound) (synonym : String) :
    (v.removeSynonym command synonym).1.Sound := by
  refine ⟨?_, ?_⟩
  · rw [commands_removeSynonym]
    exact h.nodup
  · intro g hg e he
    rcases mem_changeFirst hg with hg | ⟨d, hd, -, rfl⟩
    · exact h.settled g hg e he
    · exact h.settled d hd e (Table.mem_erase he)

theorem Sound.removeCommand (h : v.Sound) : (v.removeCommand command).1.Sound := by
  refine ⟨?_, fun g hg e he => h.settled g (List.mem_filter.1 hg).1 e he⟩
  exact h.nodup.sublist (List.filter_sublist.map _)

/-! ## What removing answers -/

omit [Grade α] in
/-- Removing a command says whether it was listed. -/
theorem snd_removeCommand_iff : (v.removeCommand command).2 = true ↔ command ∈ v.commands :=
  length_filter_ne_iff

omit [Grade α] in
/-- A command that is not listed is removed without a change. -/
theorem removeCommand_of_not_mem (h : command ∉ v.commands) :
    v.removeCommand command = (v, false) := by
  have hkept : v.groups.filter (·.command ≠ command) = v.groups := filter_ne_eq_self h
  unfold removeCommand
  dsimp only
  rw [hkept, bne_self_eq_false]

omit [Grade α] in
/-- A synonym that a command does not have is taken from it without a change. -/
theorem removeSynonym_of_not_hasSynonym {synonym : String}
    (h : v.hasSynonym command synonym = false) :
    v.removeSynonym command synonym = (v, false) := by
  unfold removeSynonym
  rw [h, changeFirst_eq_self fun g hg => ?_]
  have hnone : g.synonyms.contains (Text.normalize synonym) = false := by
    unfold hasSynonym get? at h
    rw [hg] at h
    exact h
  rw [Table.erase_eq_self hnone]

/-! ## Soundness of every edit -/

/-- **Every edit keeps a vocabulary sound.** -/
theorem Sound.edit (h : v.Sound) (e : Edit α) : (v.edit e).Sound := by
  cases e with
  | register command synonyms => exact h.register synonyms
  | add command synonym weight => exact h.add synonym weight
  | removeSynonym command synonym => exact h.removeSynonym synonym
  | removeCommand command => exact h.removeCommand
  | clear => exact sound_empty

/-- **A vocabulary that edits lead to is sound.** -/
theorem sound_ofEdits (es : List (Edit α)) : (ofEdits es).Sound := by
  have hrun : ∀ v : Vocabulary α, v.Sound → (es.foldl Vocabulary.edit v).Sound := by
    induction es with
    | nil => exact fun _ h => h
    | cons e es ih => exact fun v h => ih (v.edit e) (h.edit e)
  exact hrun empty sound_empty

end Vocabulary

end CommandDesk
