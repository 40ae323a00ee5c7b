import CommandDesk.Proofs.Config.Clean
import CommandDesk.Proofs.Synonym.Edits

/-!
# Editing the synonyms of a configuration

Synonyms are added to a configuration and taken from it one by one, and some of
the edits are refused. An edit that is accepted changes the synonyms of one
command (`edit_eq`). It keeps the configuration clean, and does to its vocabulary
what the same edit of the vocabulary does (`Clean.vocabulary_updateSynonyms`); so
editing the configuration and then building the vocabulary comes to the same as
editing the vocabulary (`attempts_standard`).
-/

namespace CommandDesk

/-- An edit of the synonyms of a command. -/
inductive SynonymEdit where
  | add (command synonym : String) (weight : Float)
  | remove (command synonym : String)

namespace SynonymEdit

/-- The command whose synonyms are edited. -/
def command : SynonymEdit → String
  | add command _ _ | remove command _ => command

/-- What happens to its synonyms. -/
def change : SynonymEdit → Synonyms Float → Synonyms Float
  | add _ synonym weight, t => t.insert (Text.normalize synonym) (Grade.clamp weight)
  | remove _ synonym, t => t.erase (Text.normalize synonym)

/-- The same edit of a vocabulary. -/
def onVocabulary : SynonymEdit → Vocabulary.Edit Float
  | add command synonym weight => .add command synonym weight
  | remove command synonym => .removeSynonym command synonym

end SynonymEdit

namespace Config

/-- Edit the synonyms of a command. -/
def edit (c : Config) : SynonymEdit → Except Error Config
  | .add command synonym weight => c.addSynonym command synonym weight
  | .remove command synonym => (c.removeSynonym command synonym).map (·.1)

/-- The configuration after an edit. One that is refused leaves it as it is. -/
def attempt (c : Config) (e : SynonymEdit) : Config :=
  match c.edit e with
  | .ok edited => edited
  | .error _ => c

/-- The configuration after edits in turn. -/
def attempts (c : Config) (es : List SynonymEdit) : Config := es.foldl attempt c

/-- Those of the edits in turn that are not refused. -/
def accepted (c : Config) : List SynonymEdit → List SynonymEdit
  | [] => []
  | e :: es => match c.edit e with
    | .ok edited => e :: edited.accepted es
    | .error _ => c.accepted es

/-- Why an edit is refused, if it is: a synonym can be given to any name, if it is not blank, and
taken from a command that is listed. -/
def refusal? (c : Config) : SynonymEdit → Option Error
  | .add command synonym _ =>
    if Name.isValid command = false then some (.invalidCommandName command)
    else if Text.normalize synonym = "" then some .emptySynonym
    else none
  | .remove command _ =>
    if command ∈ c.commands.map (·.name) then none else some (.unknownCommand command)

/-- The configuration with other synonyms for a command, which is added at the end if it is new. -/
def updateSynonyms (c : Config) (command : String) (f : Synonyms Float → Synonyms Float) :
    Config :=
  let commands :=
    if command ∈ c.commands.map (·.name) then
      changeEntry command (fun e => { e with synonyms := f e.synonyms }) c.commands
    else c.commands ++ [.ofName command (f .empty)]
  { c with commands }

/-- A command is listed without synonyms. -/
def Bare (c : Config) (command : String) : Prop :=
  ∃ e ∈ c.commands, e.name = command ∧ e.synonyms.isEmpty = true

variable {c : Config} {e : SynonymEdit} {command : String}
variable {f : Synonyms Float → Synonyms Float}

/-! ## Changing the entry of a command -/

theorem isSome_command?_iff : (c.command? command).isSome = true ↔
    command ∈ c.commands.map (·.name) := by
  simp [command?]

/-- Entries are changed as the groups of a vocabulary are. -/
theorem changeEntry_eq_changeFirst (g : CommandEntry → CommandEntry) (es : List CommandEntry) :
    changeEntry command g es = Vocabulary.changeFirst (·.name = command) g es := by
  induction es with
  | nil => rfl
  | cons b es ih =>
    rw [changeEntry, Vocabulary.changeFirst, ih]
    by_cases hb : b.name = command
    · rw [if_pos hb, if_pos (decide_eq_true hb)]
    · rw [if_neg hb, if_neg (by simpa using hb)]

/-- Seen as groups, changing an entry is changing a group. -/
theorem map_group_changeEntry (es : List CommandEntry) :
    (changeEntry command (fun e => { e with synonyms := f e.synonyms }) es).map CommandEntry.group =
      Vocabulary.changeFirst (·.command = command) (fun g => { g with synonyms := f g.synonyms })
        (es.map CommandEntry.group) := by
  rw [changeEntry_eq_changeFirst]
  refine Vocabulary.map_changeFirst_comm (fun e => ?_) (fun e => ?_) es
  · rfl
  · rfl

/-- **What an update leaves behind**: the entries that were there, and one of the command with the
changed synonyms. -/
theorem mem_updateSynonyms {d : CommandEntry} (h : d ∈ (c.updateSynonyms command f).commands) :
    d ∈ c.commands ∨ d.name = command ∧
      ∃ t, (t = .empty ∨ ∃ b ∈ c.commands, b.synonyms = t) ∧ d.synonyms = f t := by
  unfold updateSynonyms at h
  dsimp only at h
  split at h
  · rw [changeEntry_eq_changeFirst] at h
    rcases Vocabulary.mem_changeFirst h with h | ⟨b, hb, hname, rfl⟩
    · exact .inl h
    · exact .inr ⟨of_decide_eq_true hname, b.synonyms, .inr ⟨b, hb, rfl⟩, rfl⟩
  · rcases List.mem_append.1 h with h | h
    · exact .inl h
    · obtain rfl := List.mem_singleton.1 h
      exact .inr ⟨rfl, .empty, .inl rfl, rfl⟩

/-- **An update of a configuration** is the update of its vocabulary. -/
theorem listed_updateSynonyms (c : Config) (command : String)
    (f : Synonyms Float → Synonyms Float) :
    (c.updateSynonyms command f).listed = c.listed.update command f := by
  have hlisted : c.listed.contains command = true ↔ command ∈ c.commands.map (·.name) := by
    rw [Vocabulary.contains_iff, commands_listed]
  unfold updateSynonyms Vocabulary.update
  by_cases h : command ∈ c.commands.map (·.name)
  · rw [if_pos h, if_pos (hlisted.2 h)]
    exact congrArg Vocabulary.mk (map_group_changeEntry c.commands)
  · rw [if_neg h, if_neg fun h' => h (hlisted.1 h')]
    exact congrArg Vocabulary.mk List.map_append

/-- An update touches nothing but the commands. -/
theorem StandardSettings.updateSynonyms (h : c.StandardSettings) :
    (c.updateSynonyms command f).StandardSettings := by
  have hupdate : c.updateSynonyms command f =
      { c with commands := (c.updateSynonyms command f).commands } := rfl
  unfold StandardSettings at h ⊢
  rw [hupdate]
  generalize (c.updateSynonyms command f).commands = commands
  rw [h]

/-! ## One edit -/

/-- A synonym that is not blank is given to a command of any valid name. -/
theorem addSynonym_eq_ok {synonym : String} (hname : Name.isValid command = true)
    (hsynonym : Text.normalize synonym ≠ "") (weight : Float) :
    c.addSynonym command synonym weight =
      .ok (c.updateSynonyms command (SynonymEdit.add command synonym weight).change) := by
  have hempty : ¬ (Text.normalize synonym).isEmpty = true := by simpa using hsynonym
  unfold addSynonym updateSynonyms
  rw [Name.validate, if_pos hname]
  dsimp only [bind, Except.bind]
  rw [if_neg hempty]
  by_cases hlisted : command ∈ c.commands.map (·.name)
  · rw [if_pos hlisted]
    exact if_pos (isSome_command?_iff.2 hlisted)
  · rw [if_neg hlisted]
    exact if_neg fun h => hlisted (isSome_command?_iff.1 h)

/-- A synonym is taken from a command that is listed; whether it was there is what the vocabulary
says. -/
theorem removeSynonym_eq_ok (hlisted : command ∈ c.commands.map (·.name)) (synonym : String) :
    c.removeSynonym command synonym =
      .ok (c.updateSynonyms command (SynonymEdit.remove command synonym).change,
        c.listed.hasSynonym command synonym) := by
  obtain ⟨entry, hentry⟩ := Option.isSome_iff_exists.1 (isSome_command?_iff.2 hlisted)
  have hthere : c.listed.hasSynonym command synonym =
      entry.synonyms.contains (Text.normalize synonym) := by
    unfold Vocabulary.hasSynonym
    rw [get?_listed, hentry]
    rfl
  unfold removeSynonym updateSynonyms
  rw [hentry, if_pos hlisted, hthere]
  rfl

/-- **What an edit does**: it is refused, or changes the synonyms of its command. -/
theorem edit_eq (c : Config) (e : SynonymEdit) :
    c.edit e = match c.refusal? e with
      | some err => .error err
      | none => .ok (c.updateSynonyms e.command e.change) := by
  cases e with
  | add command synonym weight =>
    unfold edit refusal?
    dsimp only
    cases hname : Name.isValid command with
    | false =>
      unfold addSynonym
      rw [Name.validate, hname]
      rfl
    | true =>
      rw [if_neg (by decide)]
      by_cases hsynonym : Text.normalize synonym = ""
      · have hempty : (Text.normalize synonym).isEmpty = true := by simpa using hsynonym
        unfold addSynonym
        rw [if_pos hsynonym, Name.validate, hname]
        dsimp only [bind, Except.bind]
        rw [if_pos hempty]
        rfl
      · rw [if_neg hsynonym]
        exact addSynonym_eq_ok hname hsynonym weight
  | remove command synonym =>
    unfold edit refusal?
    dsimp only
    by_cases hlisted : command ∈ c.commands.map (·.name)
    · rw [if_pos hlisted, removeSynonym_eq_ok hlisted]
      rfl
    · have hnone : c.command? command = none := by
        rw [← Option.not_isSome_iff_eq_none, isSome_command?_iff]
        exact hlisted
      unfold removeSynonym
      rw [if_neg hlisted, hnone]
      rfl

theorem refusal?_add_eq_none {synonym : String} {weight : Float} :
    c.refusal? (.add command synonym weight) = none ↔
      Name.isValid command = true ∧ Text.normalize synonym ≠ "" := by
  unfold refusal?
  dsimp only
  cases Name.isValid command <;> simp

theorem refusal?_remove_eq_none {synonym : String} :
    c.refusal? (.remove command synonym) = none ↔ command ∈ c.commands.map (·.name) := by
  simp [refusal?]

theorem edit_eq_error_iff {err : Error} : c.edit e = .error err ↔ c.refusal? e = some err := by
  rw [edit_eq]
  cases c.refusal? e with
  | some other => simp
  | none => simp

theorem attempt_of_refused {err : Error} (h : c.edit e = .error err) : c.attempt e = c := by
  unfold attempt
  rw [h]

theorem attempt_of_accepted (h : c.refusal? e = none) :
    c.attempt e = c.updateSynonyms e.command e.change := by
  unfold attempt
  rw [edit_eq, h]

/-- An edit that is accepted is about a valid name or a command that is listed. -/
theorem valid_or_listed (h : c.refusal? e = none) :
    Name.isValid e.command = true ∨ e.command ∈ c.commands.map (·.name) := by
  cases e with
  | add command synonym weight => exact .inl (refusal?_add_eq_none.1 h).1
  | remove command synonym => exact .inr (refusal?_remove_eq_none.1 h)

/-- An edit that is accepted keeps synonyms clean. -/
theorem cleanSynonym_change (h : c.refusal? e = none) {t : Synonyms Float}
    (ht : ∀ s ∈ t.entries, CleanSynonym s) : ∀ s ∈ (e.change t).entries, CleanSynonym s := by
  intro s hs
  cases e with
  | add command synonym weight =>
    rcases Table.mem_insert hs with rfl | hs
    · exact .of_normalize (refusal?_add_eq_none.1 h).2 weight
    · exact ht s hs
  | remove command synonym => exact ht s (Table.mem_erase hs)

/-- **An edit that is accepted keeps a configuration clean.** -/
theorem Clean.updateSynonyms (hc : c.Clean) (h : c.refusal? e = none) :
    (c.updateSynonyms e.command e.change).Clean := by
  refine ⟨fun d hd => ?_, ?_, fun d hd => ?_⟩
  · rcases mem_updateSynonyms hd with hd | ⟨hname, -⟩
    · exact hc.valid d hd
    · rw [hname]
      rcases valid_or_listed h with hvalid | hlisted
      · exact hvalid
      · obtain ⟨b, hb, hbname⟩ := List.mem_map.1 hlisted
        exact hbname ▸ hc.valid b hb
  · rw [← commands_listed, listed_updateSynonyms]
    refine Vocabulary.nodup_update ?_ e.change
    rw [commands_listed]
    exact hc.nodup
  · rcases mem_updateSynonyms hd with hd | ⟨-, t, ht, hsynonyms⟩
    · exact hc.synonyms d hd
    · rw [hsynonyms]
      refine cleanSynonym_change h ?_
      rcases ht with rfl | ⟨b, hb, rfl⟩
      · exact fun s hs => absurd hs List.not_mem_nil
      · exact hc.synonyms b hb

/-- An edit that is accepted updates a vocabulary as it does a configuration. -/
theorem listed_edit (h : c.refusal? e = none) :
    c.listed.edit e.onVocabulary = c.listed.update e.command e.change := by
  cases e with
  | add command synonym weight => rfl
  | remove command synonym =>
    -- what is taken is taken from a command that is listed
    have hlisted : c.listed.contains command = true := by
      rw [Vocabulary.contains_iff, commands_listed]
      exact refusal?_remove_eq_none.1 h
    exact (if_pos hlisted).symm

/-- **Editing simulates editing the vocabulary.** -/
theorem Clean.vocabulary_updateSynonyms (hc : c.Clean) (h : c.refusal? e = none) :
    (c.updateSynonyms e.command e.change).vocabulary = c.vocabulary.edit e.onVocabulary := by
  rw [(hc.updateSynonyms h).vocabulary_eq, hc.vocabulary_eq, listed_edit h, listed_updateSynonyms]

/-! ## Commands without synonyms -/

/-- Only taking a synonym leaves a command bare that was not. -/
theorem bare_attempt (h : (c.attempt e).Bare command) :
    c.Bare command ∨ ∃ synonym, e = .remove command synonym := by
  cases hrefusal : c.refusal? e with
  | some err =>
    rw [attempt_of_refused (edit_eq_error_iff.2 hrefusal)] at h
    exact .inl h
  | none =>
    rw [attempt_of_accepted hrefusal] at h
    obtain ⟨d, hd, rfl, hempty⟩ := h
    rcases mem_updateSynonyms hd with hd | ⟨hname, t, -, hsynonyms⟩
    · exact .inl ⟨d, hd, rfl, hempty⟩
    · rw [hsynonyms] at hempty
      cases e with
      | add command synonym weight =>
        rw [SynonymEdit.change, Table.isEmpty_insert] at hempty
        cases hempty
      | remove command synonym => exact .inr ⟨synonym, by rw [hname]; rfl⟩

/-! ## Edits in turn -/

theorem attempts_cons (c : Config) (e : SynonymEdit) (es : List SynonymEdit) :
    c.attempts (e :: es) = (c.attempt e).attempts es := by
  unfold attempts
  rw [List.foldl_cons]

/-- What one edit keeps, edits in turn keep. -/
theorem attempts_induction {P : Config → Prop} (h : P c)
    (hstep : ∀ c e, c.refusal? e = none → P c → P (c.updateSynonyms e.command e.change))
    (es : List SynonymEdit) : P (c.attempts es) := by
  induction es generalizing c with
  | nil => exact h
  | cons e es ih =>
    rw [attempts_cons]
    refine ih ?_
    cases hrefusal : c.refusal? e with
    | some err => rwa [attempt_of_refused (edit_eq_error_iff.2 hrefusal)]
    | none =>
      rw [attempt_of_accepted hrefusal]
      exact hstep c e hrefusal h

theorem Clean.attempts (h : c.Clean) (es : List SynonymEdit) : (c.attempts es).Clean :=
  attempts_induction h (fun _ _ hrefusal hc => hc.updateSynonyms hrefusal) es

theorem StandardSettings.attempts (h : c.StandardSettings) (es : List SynonymEdit) :
    (c.attempts es).StandardSettings :=
  attempts_induction h (fun _ _ _ hc => hc.updateSynonyms) es

/-- **Edits in turn simulate edits of the vocabulary**, namely of those that are accepted. -/
theorem Clean.vocabulary_attempts (h : c.Clean) (es : List SynonymEdit) :
    (c.attempts es).vocabulary =
      ((c.accepted es).map (·.onVocabulary)).foldl Vocabulary.edit c.vocabulary := by
  induction es generalizing c with
  | nil => rfl
  | cons e es ih =>
    rw [attempts_cons, accepted]
    cases hrefusal : c.refusal? e with
    | some err =>
      have hedit := edit_eq_error_iff.2 hrefusal
      rw [attempt_of_refused hedit, hedit]
      exact ih h
    | none =>
      have hedit : c.edit e = .ok (c.updateSynonyms e.command e.change) := by
        rw [edit_eq, hrefusal]
      rw [attempt_of_accepted hrefusal, hedit, ih (h.updateSynonyms hrefusal),
        h.vocabulary_updateSynonyms hrefusal]
      rfl

/-- **A command that is left bare** was so before, or one of the edits took its last synonym. -/
theorem bare_attempts {es : List SynonymEdit} (h : (c.attempts es).Bare command) :
    c.Bare command ∨ ∃ before synonym after, es = before ++ .remove command synonym :: after ∧
      ¬ (c.attempts before).Bare command ∧
        (c.attempts (before ++ [.remove command synonym])).Bare command := by
  induction es generalizing c with
  | nil => exact .inl h
  | cons e es ih =>
    rw [attempts_cons] at h
    rcases ih h with hnext | ⟨before, synonym, after, rfl, hbefore, hafter⟩
    · by_cases hfirst : c.Bare command
      · exact .inl hfirst
      · obtain ⟨synonym, rfl⟩ := (bare_attempt hnext).resolve_left hfirst
        exact .inr ⟨[], synonym, es, rfl, hfirst, hnext⟩
    · refine .inr ⟨e :: before, synonym, after, rfl, ?_, ?_⟩
      · rwa [attempts_cons]
      · rwa [List.cons_append, attempts_cons]

/-! ## From the standard configuration -/

theorem not_bare_standard (command : String) : ¬ standard.Bare command := by
  rintro ⟨e, he, -, hempty⟩
  have hall : ∀ e ∈ standard.commands, e.synonyms.isEmpty = false := by decide +kernel
  rw [hall e he] at hempty
  cases hempty

/-- **After any edits of the standard configuration** an edit is refused for one of three reasons
and then changes nothing. Names are valid and listed once, and synonyms are in normal form with a
weight in range. Validation remarks only on commands without synonyms, each of which lost its last
one to an edit, and a desk can be built. The vocabulary is the one that the accepted edits lead to
from the standard vocabulary. -/
theorem attempts_standard (es : List SynonymEdit) :
    let c := standard.attempts es
    (∀ e err, (c.edit e = .error err ↔ c.refusal? e = some err) ∧
        (c.edit e = .error err → c.attempt e = c)) ∧
      ((∀ e ∈ c.commands, Name.isValid e.name = true) ∧ (c.commands.map (·.name)).Nodup ∧
        ∀ e ∈ c.commands, ∀ s ∈ e.synonyms.entries,
          s.1 ≠ "" ∧ Text.trim s.1 = s.1 ∧ Text.lower s.1 = s.1 ∧
            (0.0 : Float) ≤ s.2 ∧ s.2 ≤ (100.0 : Float)) ∧
      c.validate = (c.commands.filter (·.synonyms.isEmpty)).map
        (fun e => (Finding.noSynonyms e.name).remark) ∧
      (∀ e ∈ c.commands, e.synonyms.isEmpty = true →
        ∃ before synonym after, es = before ++ .remove e.name synonym :: after ∧
          ¬ (standard.attempts before).Bare e.name ∧
            (standard.attempts (before ++ [.remove e.name synonym])).Bare e.name) ∧
      (∃ d, c.desk = .ok d) ∧
      c.vocabulary =
        ((standard.accepted es).map (·.onVocabulary)).foldl Vocabulary.edit .standard := by
  intro c
  have hclean : c.Clean := clean_standard.attempts es
  have hstandard : standard.StandardSettings := rfl
  have hsettings : c.StandardSettings := hstandard.attempts es
  refine ⟨fun e err => ⟨edit_eq_error_iff, attempt_of_refused⟩,
    ⟨hclean.valid, hclean.nodup, fun e he s hs => ?_⟩, hclean.validate_eq hsettings,
    fun e he hempty => ?_, hclean.exists_desk hsettings, ?_⟩
  · have hs := hclean.synonyms e he s hs
    exact ⟨hs.ne_empty, hs.trimmed, hs.lower, hs.in_range⟩
  · exact (bare_attempts ⟨e, he, rfl, hempty⟩).resolve_left (not_bare_standard e.name)
  · rw [← vocabulary_standard]
    exact clean_standard.vocabulary_attempts es

end Config

end CommandDesk
