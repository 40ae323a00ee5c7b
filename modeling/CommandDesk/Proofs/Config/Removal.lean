import CommandDesk.Config.Document
import CommandDesk.Proofs.Config.Names
import CommandDesk.Proofs.Synonym.History

/-!
# Taking a synonym from a configuration

The vocabulary of a configuration merges the entries of one name and normalizes
what they list, so a synonym is there as soon as one entry of its command spells
it in any way (`hasSynonym_vocabulary`). Taking the synonym away looks at the
first of these entries only, and at its normal form only. What is spelled
otherwise, or listed by a later entry, stays (`removeSynonym_leaves`).
-/

namespace CommandDesk

/-- An entry lists a synonym, in some spelling. -/
def CommandEntry.Spells (e : CommandEntry) (synonym : String) : Prop :=
  ∃ s ∈ e.synonyms.entries, Text.normalize s.1 = Text.normalize synonym

namespace Config

variable {c : Config} {command synonym : String} {e : CommandEntry}
variable {before after : List CommandEntry}

/-! ## Synonyms of the vocabulary -/

theorem hasSynonym_iff_weight? {v : Vocabulary Float} :
    v.hasSynonym command synonym = true ↔
      (v.weight? command (Text.normalize synonym)).isSome = true := by
  unfold Vocabulary.hasSynonym Vocabulary.weight?
  cases v.get? command with
  | none => simp
  | some t => rfl

/-- Registering an entry decides on a synonym if the entry is of the command and spells it, and
then gives it a weight. -/
theorem verdict?_entry (e : CommandEntry) (command synonym : String) :
    (¬ (e.name = command ∧ e.Spells synonym) ∧
        (Vocabulary.Edit.register e.name e.synonyms.entries).verdict? command
          (Text.normalize synonym) = none) ∨
      ((e.name = command ∧ e.Spells synonym) ∧ ∃ w,
        (Vocabulary.Edit.register e.name e.synonyms.entries).verdict? command
          (Text.normalize synonym) = some (some w)) := by
  unfold Vocabulary.Edit.verdict?
  dsimp only
  by_cases hname : e.name = command
  · rw [if_pos hname]
    cases hfind : e.synonyms.entries.reverse.find?
        fun s => decide (Text.normalize s.1 = Text.normalize synonym) with
    | none =>
      refine .inl ⟨fun h => ?_, rfl⟩
      obtain ⟨-, s, hs, hspelled⟩ := h
      have hnot := List.find?_eq_none.1 hfind s (List.mem_reverse.2 hs)
      exact hnot (decide_eq_true hspelled)
    | some s =>
      have hmem := List.mem_reverse.1 (List.mem_of_find?_eq_some hfind)
      have hspelled : Text.normalize s.1 = Text.normalize synonym := by
        simpa using List.find?_some hfind
      exact .inr ⟨⟨hname, s, hmem, hspelled⟩, Grade.clamp s.2, rfl⟩
  · rw [if_neg hname]
    exact .inl ⟨fun h => hname h.1, rfl⟩

/-- **The vocabulary has a synonym** exactly when some entry of the command spells it. -/
theorem hasSynonym_vocabulary :
    c.vocabulary.hasSynonym command synonym = true ↔
      ∃ e ∈ c.commands, e.name = command ∧ e.Spells synonym := by
  rw [hasSynonym_iff_weight?, vocabulary_eq_ofEdits, Vocabulary.weight?_ofEdits]
  unfold Vocabulary.decided?
  rw [← List.map_reverse]
  -- the entries are gone through from the last to the first
  have hmem : (∃ e ∈ c.commands, e.name = command ∧ e.Spells synonym) ↔
      ∃ e ∈ c.commands.reverse, e.name = command ∧ e.Spells synonym := by
    simp only [List.mem_reverse]
  rw [hmem]
  generalize c.commands.reverse = entries
  induction entries with
  | nil => simp
  | cons e es ih =>
    rw [List.map_cons, List.findSome?_cons, List.exists_mem_cons_iff]
    rcases verdict?_entry e command synonym with ⟨hnot, hnone⟩ | ⟨hspells, w, hsome⟩
    · rw [hnone]
      exact ih.trans (or_iff_right hnot).symm
    · rw [hsome]
      exact iff_of_true rfl (.inl hspells)

/-! ## The first entry of a command -/

/-- A command that is listed has a first entry. -/
theorem exists_first_entry (hlisted : command ∈ c.commands.map (·.name)) :
    ∃ before e after, c.commands = before ++ e :: after ∧ e.name = command ∧
      ∀ d ∈ before, d.name ≠ command := by
  obtain ⟨d, hd, hname⟩ := List.mem_map.1 hlisted
  have hsome : (c.commands.find? (·.name = command)).isSome = true := by
    rw [List.find?_isSome]
    exact ⟨d, hd, decide_eq_true hname⟩
  obtain ⟨e, he⟩ := Option.isSome_iff_exists.1 hsome
  obtain ⟨hename, before, after, hsplit, hbefore⟩ := List.find?_eq_some_iff_append.1 he
  exact ⟨before, e, after, hsplit, of_decide_eq_true hename,
    fun d hd => by simpa using hbefore d hd⟩

theorem changeEntry_append (f : CommandEntry → CommandEntry) (hname : e.name = command)
    (hbefore : ∀ d ∈ before, d.name ≠ command) :
    changeEntry command f (before ++ e :: after) = before ++ f e :: after := by
  induction before with
  | nil => exact if_pos hname
  | cons d before ih =>
    obtain ⟨hd, hrest⟩ := List.forall_mem_cons.1 hbefore
    rw [List.cons_append, changeEntry, if_neg hd, ih hrest]
    rfl

/-- Only the first entry of the command is changed, and asked whether it has the synonym. -/
theorem removeSynonym_of_first (hsplit : c.commands = before ++ e :: after)
    (hname : e.name = command) (hbefore : ∀ d ∈ before, d.name ≠ command) (synonym : String) :
    c.removeSynonym command synonym =
      .ok ({ c with commands := before ++
          { e with synonyms := e.synonyms.erase (Text.normalize synonym) } :: after },
        e.synonyms.contains (Text.normalize synonym)) := by
  have hfirst : c.command? command = some e := by
    unfold command?
    rw [hsplit, List.find?_eq_some_iff_append]
    refine ⟨decide_eq_true hname, before, after, rfl, fun d hd => ?_⟩
    have hd := hbefore d hd
    simpa using hd
  unfold removeSynonym
  rw [hfirst]
  dsimp only
  rw [hsplit, changeEntry_append _ hname hbefore]

/-- A key is there exactly when an entry is under it. -/
theorem contains_iff_mem_entries {t : Synonyms Float} {key : String} :
    t.contains key = true ↔ ∃ s ∈ t.entries, s.1 = key := by
  unfold Table.contains Table.get?
  simp

/-- What an entry spells without its normal form. -/
theorem spells_erase :
    ({ e with synonyms := e.synonyms.erase (Text.normalize synonym) } : CommandEntry).Spells
        synonym ↔
      ∃ s ∈ e.synonyms.entries,
        Text.normalize s.1 = Text.normalize synonym ∧ s.1 ≠ Text.normalize synonym := by
  unfold CommandEntry.Spells Table.erase
  simp only [List.mem_filter, decide_eq_true_eq]
  constructor
  · rintro ⟨s, ⟨hs, hkey⟩, hspelled⟩
    exact ⟨s, hs, hspelled, hkey⟩
  · rintro ⟨s, hs, hspelled, hkey⟩
    exact ⟨s, ⟨hs, hkey⟩, hspelled⟩

/-- An entry spells a synonym in its normal form or otherwise. -/
theorem spells_iff :
    e.Spells synonym ↔ e.synonyms.contains (Text.normalize synonym) = true ∨
      ∃ s ∈ e.synonyms.entries,
        Text.normalize s.1 = Text.normalize synonym ∧ s.1 ≠ Text.normalize synonym := by
  rw [contains_iff_mem_entries]
  constructor
  · rintro ⟨s, hs, hspelled⟩
    by_cases hkey : s.1 = Text.normalize synonym
    · exact .inl ⟨s, hs, hkey⟩
    · exact .inr ⟨s, hs, hspelled, hkey⟩
  · rintro (⟨s, hs, hkey⟩ | ⟨s, hs, hspelled, -⟩)
    · exact ⟨s, hs, by rw [hkey, Text.normalize_normalize]⟩
    · exact ⟨s, hs, hspelled⟩

/-- The entries of a command after those of other names: the first of them, and later ones. -/
theorem exists_spells_append (hname : e.name = command)
    (hbefore : ∀ d ∈ before, d.name ≠ command) :
    (∃ d ∈ before ++ e :: after, d.name = command ∧ d.Spells synonym) ↔
      e.Spells synonym ∨ ∃ d ∈ after, d.name = command ∧ d.Spells synonym := by
  constructor
  · rintro ⟨d, hd, hdname, hspells⟩
    rcases List.mem_append.1 hd with hd | hd
    · exact absurd hdname (hbefore d hd)
    · rcases List.mem_cons.1 hd with rfl | hd
      · exact .inl hspells
      · exact .inr ⟨d, hd, hdname, hspells⟩
  · rintro (hspells | ⟨d, hd, hdname, hspells⟩)
    · exact ⟨e, List.mem_append_right _ List.mem_cons_self, hname, hspells⟩
    · exact ⟨d, List.mem_append_right _ (List.mem_cons_of_mem _ hd), hdname, hspells⟩

/-! ## What is taken and what stays -/

/-- **What taking a synonym leaves behind.** The first entry of the command loses the normal form of
the synonym, and the answer is whether it had that. The vocabulary still has the synonym if the
first entry spells it otherwise or a later entry of the command spells it; so it had it before if
it was taken or is still there. Where the command is listed once and spells its synonyms in normal
form, the synonym is gone, and the answer is whether the vocabulary had it. -/
theorem removeSynonym_leaves (hlisted : command ∈ c.commands.map (·.name)) (synonym : String) :
    ∃ before e after c' taken,
      c.commands = before ++ e :: after ∧ e.name = command ∧
        (∀ d ∈ before, d.name ≠ command) ∧
      c.removeSynonym command synonym = .ok (c', taken) ∧
      (taken = true ↔ ∃ s ∈ e.synonyms.entries, s.1 = Text.normalize synonym) ∧
      (c'.vocabulary.hasSynonym command synonym = true ↔
        (∃ s ∈ e.synonyms.entries,
          Text.normalize s.1 = Text.normalize synonym ∧ s.1 ≠ Text.normalize synonym) ∨
        ∃ d ∈ after, d.name = command ∧ d.Spells synonym) ∧
      (c.vocabulary.hasSynonym command synonym = true ↔
        taken = true ∨ c'.vocabulary.hasSynonym command synonym = true) ∧
      ((∀ d ∈ after, d.name ≠ command) →
        (∀ s ∈ e.synonyms.entries, Text.normalize s.1 = s.1) →
        c'.vocabulary.hasSynonym command synonym = false ∧
          taken = c.vocabulary.hasSynonym command synonym) := by
  obtain ⟨before, e, after, hsplit, hname, hbefore⟩ := exists_first_entry hlisted
  have hremove := removeSynonym_of_first hsplit hname hbefore synonym
  let c' : Config := { c with commands := before ++
    { e with synonyms := e.synonyms.erase (Text.normalize synonym) } :: after }
  have hleft : c'.vocabulary.hasSynonym command synonym = true ↔
      (∃ s ∈ e.synonyms.entries,
        Text.normalize s.1 = Text.normalize synonym ∧ s.1 ≠ Text.normalize synonym) ∨
      ∃ d ∈ after, d.name = command ∧ d.Spells synonym := by
    rw [hasSynonym_vocabulary, ← spells_erase]
    exact exists_spells_append hname hbefore
  have hhad : c.vocabulary.hasSynonym command synonym = true ↔
      e.synonyms.contains (Text.normalize synonym) = true ∨
        c'.vocabulary.hasSynonym command synonym = true := by
    rw [hasSynonym_vocabulary, hsplit, exists_spells_append hname hbefore, spells_iff, hleft,
      or_assoc]
  refine ⟨before, e, after, c', e.synonyms.contains (Text.normalize synonym), hsplit, hname,
    hbefore, hremove, contains_iff_mem_entries, hleft, hhad, fun hafter hnormal => ?_⟩
  have hgone : c'.vocabulary.hasSynonym command synonym = false := by
    rw [← Bool.not_eq_true, hleft]
    rintro (⟨s, hs, hspelled, hkey⟩ | ⟨d, hd, hdname, -⟩)
    · exact hkey ((hnormal s hs).symm.trans hspelled)
    · exact hafter d hd hdname
  refine ⟨hgone, ?_⟩
  rw [Bool.eq_iff_iff, hhad, hgone]
  simp

/-- A configuration whose only entry spells a synonym with a capital. -/
def capitalized : Config :=
  { standard with commands := [.ofName "list-files" (.ofList [("List", 100.0)])] }

/-- A configuration that lists a command twice, each time with the same synonym. -/
def repeated : Config :=
  { standard with
    commands := [.ofName "list-files" (.ofList [("list", 100.0)]),
      .ofName "list-files" (.ofList [("list", 90.0)])] }

/-- What is taken from the first entry is still listed by the second. -/
theorem removeSynonym_leaves_repeated :
    "list-files" ∈ repeated.commands.map (·.name) ∧
      ∃ c', repeated.removeSynonym "list-files" "list" = .ok (c', true) ∧
        c'.vocabulary.hasSynonym "list-files" "list" = true := by
  have hlisted : "list-files" ∈ repeated.commands.map (·.name) := List.mem_cons_self
  obtain ⟨before, e, after, c', taken, hsplit, -, hbefore, hremove, htaken, hleft, -⟩ :=
    removeSynonym_leaves hlisted "list"
  cases before with
  | nil =>
    obtain ⟨rfl, rfl⟩ := List.cons.inj hsplit
    have hkey : taken = true := htaken.2 ⟨("list", 100.0), List.mem_cons_self, by decide +kernel⟩
    have hlater : (CommandEntry.ofName "list-files" (.ofList [("list", 90.0)])).Spells "list" :=
      ⟨("list", 90.0), List.mem_cons_self, rfl⟩
    exact ⟨hlisted, c', hkey ▸ hremove,
      hleft.2 (.inr ⟨_, List.mem_cons_self, rfl, hlater⟩)⟩
  | cons d before =>
    obtain ⟨rfl, -⟩ := List.cons.inj hsplit
    exact absurd rfl (hbefore _ List.mem_cons_self)

/-- The text of the configuration that lists a command twice. -/
def repeatedText : String :=
  "commands:\n- name: list-files\n  synonyms:\n    list: 100.0\n"
    ++ "- name: list-files\n  synonyms:\n    list: 90.0\n"

/-- The text of the configuration with a capital. -/
def capitalizedText : String := "commands:\n- name: list-files\n  synonyms:\n    List: 100.0\n"

/-- **A synonym that was taken is still there, and one that is there is said not to be**: of a
command that a document lists twice, and of one whose synonym it spells with a capital. -/
theorem hasSynonym_after_removeSynonym :
    (Config.parse repeatedText = .ok repeated ∧
      ∃ c', repeated.removeSynonym "list-files" "list" = .ok (c', true) ∧
        c'.vocabulary.hasSynonym "list-files" "list" = true) ∧
    (Config.parse capitalizedText = .ok capitalized ∧
      capitalized.vocabulary.hasSynonym "list-files" "list" = true ∧
      ∃ c', capitalized.removeSynonym "list-files" "list" = .ok (c', false) ∧
        c'.vocabulary.hasSynonym "list-files" "list" = true) := by
  have hrepeated : Config.parse repeatedText = .ok repeated := by decide +kernel
  have hcapitalized : Config.parse capitalizedText = .ok capitalized := by decide +kernel
  have hbefore : capitalized.vocabulary.hasSynonym "list-files" "list" = true := by
    decide +kernel
  refine ⟨⟨hrepeated, _, rfl, ?_⟩, hcapitalized, hbefore, _, rfl, ?_⟩
  · decide +kernel
  · decide +kernel

end Config

end CommandDesk
