import CommandDesk.Proofs.Config.Validation
import CommandDesk.Proofs.Grade.FloatOrder
import CommandDesk.Proofs.Table

/-!
# Clean configurations

A configuration is clean where its names are valid and distinct and every synonym
stands as it would be registered: in normal form, not empty, with a weight in
range. Then its vocabulary is the list of its commands as they stand
(`Clean.vocabulary_eq`), and under the standard settings nothing is found but
commands without synonyms (`Clean.validate_eq`) and a desk can be built
(`Clean.exists_desk`).
-/

namespace CommandDesk

/-- A synonym with its weight, written as it is registered. -/
structure CleanSynonym (s : String × Float) : Prop where
  ne_empty : s.1 ≠ ""
  trimmed : Text.trim s.1 = s.1
  lower : Text.lower s.1 = s.1
  in_range : (0.0 : Float) ≤ s.2 ∧ s.2 ≤ (100.0 : Float)

namespace CleanSynonym

variable {s : String × Float}

/-- Registering leaves a clean synonym as it is. -/
theorem registered (h : CleanSynonym s) : (Text.normalize s.1, Grade.clamp s.2) = s := by
  have hname : Text.normalize s.1 = s.1 := by
    unfold Text.normalize
    rw [h.trimmed, h.lower]
  rw [hname, Grade.float_clamp_eq_self h.in_range.1 h.in_range.2]

/-- A normal form that is not empty is clean, with any weight once it is clamped. -/
theorem of_normalize {synonym : String} (h : Text.normalize synonym ≠ "") (w : Float) :
    CleanSynonym (Text.normalize synonym, Grade.clamp w) :=
  ⟨h, Text.trim_normalize synonym, Text.lower_normalize synonym, Grade.float_clamp_bounds w⟩

/-- A word is clean with a weight in range. -/
theorem of_isValid {synonym : String} (h : Name.isValid synonym = true) {w : Float}
    (hw : (0.0 : Float) ≤ w ∧ w ≤ (100.0 : Float)) : CleanSynonym (synonym, w) := by
  have hplain : ∀ ch ∈ synonym.toList, Text.Plain ch := fun _ => Name.plain_of_isValid h
  refine ⟨?_, Text.trim_of_plain hplain, Text.lower_of_plain hplain, hw⟩
  rintro rfl
  exact absurd h (by decide)

/-- Clean synonyms are registered as they stand. -/
theorem map_registered {synonyms : List (String × Float)} (h : ∀ s ∈ synonyms, CleanSynonym s) :
    (synonyms.map fun (a, w) => (Text.normalize a, Grade.clamp w)) = synonyms :=
  (List.map_congr_left fun s hs => (h s hs).registered).trans (List.map_id _)

end CleanSynonym

/-- The command with its synonyms as they stand. -/
def CommandEntry.group (e : CommandEntry) : Group Float := ⟨e.name, e.synonyms⟩

namespace Config

/-- **A configuration as edits leave it.** -/
structure Clean (c : Config) : Prop where
  valid : ∀ e ∈ c.commands, Name.isValid e.name = true
  nodup : (c.commands.map (·.name)).Nodup
  synonyms : ∀ e ∈ c.commands, ∀ s ∈ e.synonyms.entries, CleanSynonym s

/-- The vocabulary of the commands as they stand. -/
def listed (c : Config) : Vocabulary Float := ⟨c.commands.map CommandEntry.group⟩

/-- Nothing but the commands differs from the standard. -/
def StandardSettings (c : Config) : Prop := c = { standard with commands := c.commands }

variable {c : Config}

namespace StandardSettings

theorem mapping (h : c.StandardSettings) : c.mapping = .standard := congrArg Config.mapping h

theorem protocol (h : c.StandardSettings) : c.protocol = .standard := congrArg Config.protocol h

theorem hacks (h : c.StandardSettings) : c.hacks = {} := congrArg Config.hacks h

theorem maxEntries (h : c.StandardSettings) : c.maxEntries = 100 := congrArg Config.maxEntries h

end StandardSettings

/-! ## The vocabulary -/

theorem commands_listed (c : Config) : c.listed.commands = c.commands.map (·.name) := by
  unfold listed Vocabulary.commands
  rw [List.map_map]
  rfl

/-- Looking up the listed synonyms is looking up the entry. -/
theorem get?_listed (c : Config) (command : String) :
    c.listed.get? command = (c.command? command).map (·.synonyms) := by
  unfold listed Vocabulary.get? command?
  rw [List.find?_map, Option.map_map]
  rfl

/-- **Commands that are new, with clean synonyms, are registered as they stand.** -/
theorem foldl_register_eq (gs : List (String × List (String × Float))) (v : Vocabulary Float)
    (hnodup : (v.commands ++ gs.map (·.1)).Nodup)
    (hclean : ∀ g ∈ gs, ∀ s ∈ g.2, CleanSynonym s) :
    gs.foldl (fun v g => v.register g.1 g.2) v =
      ⟨v.groups ++ gs.map fun g => ⟨g.1, Table.ofList g.2⟩⟩ := by
  induction gs generalizing v with
  | nil => simp
  | cons g gs ih =>
    obtain ⟨hg, hgs⟩ := List.forall_mem_cons.1 hclean
    have hnew : ¬ v.contains g.1 = true := by
      rw [Vocabulary.contains_iff]
      intro hmem
      exact (List.nodup_append.1 hnodup).2.2 _ hmem _ List.mem_cons_self rfl
    have hregister : v.register g.1 g.2 = ⟨v.groups ++ [⟨g.1, Table.ofList g.2⟩]⟩ := by
      unfold Vocabulary.register Vocabulary.update
      rw [if_neg hnew, CleanSynonym.map_registered hg]
      rfl
    have hcommands : (v.register g.1 g.2).commands = v.commands ++ [g.1] := by
      rw [hregister]
      unfold Vocabulary.commands
      rw [List.map_append]
      rfl
    have hrest : ((v.register g.1 g.2).commands ++ gs.map (·.1)).Nodup := by
      rw [hcommands, List.append_assoc]
      exact hnodup
    rw [List.foldl_cons, ih _ hrest hgs, hregister, List.append_assoc]
    rfl

/-- **The vocabulary of a clean configuration** is that of its commands as they stand. -/
theorem Clean.vocabulary_eq (h : c.Clean) : c.vocabulary = c.listed := by
  let gs := c.commands.map fun e => (e.name, e.synonyms.entries)
  have hgs : c.vocabulary = gs.foldl (fun v g => v.register g.1 g.2) .empty := by
    unfold vocabulary
    rw [List.foldl_map]
  have hnames : gs.map (·.1) = c.commands.map (·.name) := List.map_map
  have hgroups : (gs.map fun g => (⟨g.1, Table.ofList g.2⟩ : Group Float)) =
      c.commands.map CommandEntry.group := by
    rw [List.map_map]
    refine List.map_congr_left fun e _ => ?_
    exact congrArg (Group.mk e.name) (Table.ofList_entries e.synonyms)
  have hclean : ∀ g ∈ gs, ∀ s ∈ g.2, CleanSynonym s := by
    intro g hg
    obtain ⟨e, he, rfl⟩ := List.mem_map.1 hg
    exact h.synonyms e he
  rw [hgs, foldl_register_eq gs .empty (hnames ▸ h.nodup) hclean, hgroups]
  rfl

/-! ## What is found -/

/-- Of valid names that come once, with clean synonyms, only those without any are found. -/
theorem entriesFindings_eq {before : List String} {es : List CommandEntry}
    (hvalid : ∀ e ∈ es, Name.isValid e.name = true) (hnodup : (es.map (·.name)).Nodup)
    (hnew : ∀ e ∈ es, e.name ∉ before)
    (hclean : ∀ e ∈ es, ∀ s ∈ e.synonyms.entries, CleanSynonym s) :
    entriesFindings before es =
      (es.filter (·.synonyms.isEmpty)).map fun e => .noSynonyms e.name := by
  induction es generalizing before with
  | nil => rfl
  | cons e es ih =>
    obtain ⟨hename, hesname⟩ := List.forall_mem_cons.1 hvalid
    obtain ⟨henew, hesnew⟩ := List.forall_mem_cons.1 hnew
    obtain ⟨he, hes⟩ := List.forall_mem_cons.1 hclean
    obtain ⟨hfresh, hnodup⟩ := List.nodup_cons.1 hnodup
    have hweights : e.synonyms.entries.filter (fun s => !MapRules.inRange s.2) = [] := by
      rw [List.filter_eq_nil_iff]
      intro s hs
      obtain ⟨hlow, hhigh⟩ := (he s hs).in_range
      simp [MapRules.inRange, hlow, hhigh]
    have hrest : ∀ d ∈ es, d.name ∉ e.name :: before := by
      intro d hd hmem
      rcases List.mem_cons.1 hmem with hsame | hmem
      · exact hfresh (List.mem_map.2 ⟨d, hd, hsame⟩)
      · exact hesnew d hd hmem
    have hentry : entryFindings before e =
        Finding.when e.synonyms.isEmpty (.noSynonyms e.name) := by
      unfold entryFindings
      rw [hweights]
      simp [Finding.when, hename, henew]
    rw [entriesFindings, hentry, ih hesname hnodup hrest hes, List.filter_cons]
    by_cases hempty : e.synonyms.isEmpty = true
    · simp [hempty, Finding.when]
    · simp [hempty, Finding.when]

/-- The standard choice of hacks is there. -/
theorem isSome_standardPreset : (Preset.find? ({} : HackChoice).preset).isSome = true := by decide

/-- **Under the standard settings** a clean configuration gets no remarks but those on commands
without synonyms. -/
theorem Clean.validate_eq (h : c.Clean) (hs : c.StandardSettings) :
    c.validate =
      (c.commands.filter (·.synonyms.isEmpty)).map fun e => (Finding.noSynonyms e.name).remark := by
  have hmapping : c.mapping.validate = .ok () := by
    rw [hs.mapping]
    rfl
  have hprotocol : c.protocol.validate = .ok () := by
    rw [hs.protocol]
    rfl
  have hhacks : hackFindings c.hacks = [] := by
    have hpreset := Option.isNone_eq_false_iff.2 isSome_standardPreset
    have hoverrides : ({} : HackChoice).overrides.keys = [] := rfl
    unfold hackFindings
    rw [hs.hacks, hpreset, hoverrides]
    rfl
  have hentries := entriesFindings_eq h.valid h.nodup (fun _ _ => List.not_mem_nil) h.synonyms
  have hfindings : c.findings =
      (c.commands.filter (·.synonyms.isEmpty)).map fun e => .noSynonyms e.name := by
    unfold findings
    rw [hmapping, hprotocol, hentries, hhacks, hs.maxEntries]
    simp [Finding.ofResult, Finding.when]
  unfold validate
  rw [hfindings, List.map_map]
  rfl

/-- **Under the standard settings** a clean configuration yields a desk. -/
theorem Clean.exists_desk (h : c.Clean) (hs : c.StandardSettings) : ∃ d, c.desk = .ok d := by
  refine exists_desk_iff.2 ⟨exists_mapper_iff.2 ⟨?_, h.valid⟩, exists_protocol_iff.2 ?_,
    exists_hackSet_iff.2 ⟨?_, ?_⟩⟩
  · rw [hs.mapping]
    rfl
  · rw [hs.protocol]
    rfl
  · rw [hs.hacks]
    exact isSome_standardPreset
  · rw [hs.hacks]
    exact fun _ hid => absurd hid List.not_mem_nil

/-! ## The standard configuration -/

/-- The names and synonyms to start with are words, and the weights are in range. -/
theorem standardSynonyms_clean :
    ∀ g ∈ Vocabulary.standardSynonyms, Name.isValid g.1 = true ∧
      ∀ s ∈ g.2, Name.isValid s.1 = true ∧
        (0.0 : Float) ≤ Grade.ofNat s.2 ∧ (Grade.ofNat s.2 : Float) ≤ (100.0 : Float) := by
  decide +kernel

theorem gradesOf_clean {g : String × List (String × Nat)} (hg : g ∈ Vocabulary.standardSynonyms) :
    ∀ s ∈ (Vocabulary.gradesOf g.2 : List (String × Float)), CleanSynonym s := by
  intro s hs
  obtain ⟨⟨synonym, w⟩, hmem, rfl⟩ := List.mem_map.1 hs
  obtain ⟨hvalid, hrange⟩ := (standardSynonyms_clean g hg).2 _ hmem
  exact .of_isValid hvalid hrange

/-- A standard entry has the name and the synonyms it is made of. -/
theorem group_standard (name : String) (synonyms : List (String × Nat)) :
    (CommandEntry.standard name synonyms).group =
      ⟨name, Table.ofList (Vocabulary.gradesOf synonyms)⟩ := by
  unfold CommandEntry.standard CommandEntry.group
  dsimp only
  split
  · rename_i spec hspec
    have hname : spec.name = name := by simpa using List.find?_some hspec
    rw [← hname]
  · rfl

/-- The commands to start with as they stand. -/
theorem listed_standard :
    standard.listed =
      ⟨Vocabulary.standardSynonyms.map fun g => ⟨g.1, Table.ofList (Vocabulary.gradesOf g.2)⟩⟩ := by
  have hcommands : standard.commands =
      Vocabulary.standardSynonyms.map fun g => .standard g.1 g.2 := rfl
  unfold listed
  rw [hcommands, List.map_map]
  exact congrArg Vocabulary.mk (List.map_congr_left fun g _ => group_standard g.1 g.2)

theorem names_standard :
    standard.commands.map (·.name) = Vocabulary.standardSynonyms.map (·.1) := by
  rw [← commands_listed, listed_standard]
  exact List.map_map

/-- **The standard configuration is clean.** -/
theorem clean_standard : standard.Clean := by
  -- an entry is looked at as the group that it makes
  have hentry : ∀ e ∈ standard.commands, ∃ g ∈ Vocabulary.standardSynonyms,
      e.group = ⟨g.1, Table.ofList (Vocabulary.gradesOf g.2)⟩ := by
    intro e he
    obtain ⟨g, hg, rfl⟩ := List.mem_map.1 he
    exact ⟨g, hg, group_standard g.1 g.2⟩
  refine ⟨fun e he => ?_, ?_, fun e he s hs => ?_⟩
  · obtain ⟨g, hg, hgroup⟩ := hentry e he
    have hname : e.name = g.1 := congrArg Group.command hgroup
    rw [hname]
    exact (standardSynonyms_clean g hg).1
  · rw [names_standard]
    decide
  · obtain ⟨g, hg, hgroup⟩ := hentry e he
    have hsynonyms : e.synonyms = Table.ofList (Vocabulary.gradesOf g.2) :=
      congrArg Group.synonyms hgroup
    rw [hsynonyms] at hs
    rcases Table.mem_insertAll hs with hs | hs
    · exact gradesOf_clean hg s hs
    · exact absurd hs List.not_mem_nil

/-- **The vocabulary of the standard configuration** is the standard one. -/
theorem vocabulary_standard : standard.vocabulary = .standard := by
  let gs : List (String × List (String × Float)) :=
    Vocabulary.standardSynonyms.map fun g => (g.1, Vocabulary.gradesOf g.2)
  have hgs : Vocabulary.standard = gs.foldl (fun v g => v.register g.1 g.2) .empty := by
    unfold Vocabulary.standard
    rw [List.foldl_map]
  have hnodup : (gs.map (·.1)).Nodup := by
    rw [List.map_map]
    decide
  have hclean : ∀ g ∈ gs, ∀ s ∈ g.2, CleanSynonym s := by
    intro g hg
    obtain ⟨words, hwords, rfl⟩ := List.mem_map.1 hg
    exact gradesOf_clean hwords
  rw [clean_standard.vocabulary_eq, listed_standard, hgs, foldl_register_eq gs .empty hnodup hclean,
    List.map_map]
  rfl

end Config

end CommandDesk
