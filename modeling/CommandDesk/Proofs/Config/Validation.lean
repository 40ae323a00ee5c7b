import CommandDesk.Config.Validation
import CommandDesk.Proofs.Config.Names
import CommandDesk.Proofs.Hack

/-!
# What validation predicts

The remarks on a configuration are found without building anything. Still the
ones at the level of an error appear exactly where a stage of the desk cannot be
built, each for its own stage, and those at the level of a warning stand in
nobody's way (`validate_predicts_desk`).
-/

namespace CommandDesk

/-- Something fails exactly when it does not succeed. -/
theorem exists_error_iff {ε β : Type} {x : Except ε β} :
    (∃ e, x = .error e) ↔ ¬ ∃ b, x = .ok b := by
  cases x <;> simp

/-- **A run of steps succeeds** when every step does, if what a step needs does not depend on the
steps before it. -/
theorem exists_foldlM_eq_ok {ε σ β : Type} {f : σ → β → Except ε σ} {P : β → Prop}
    {I : σ → Prop} (hstep : ∀ s x, I s → ((∃ t, f s x = .ok t) ↔ P x))
    (hkeep : ∀ s x t, I s → f s x = .ok t → I t) (xs : List β) {s : σ} (hs : I s) :
    (∃ t, xs.foldlM f s = .ok t) ↔ ∀ x ∈ xs, P x := by
  induction xs generalizing s with
  | nil => simp [pure, Except.pure]
  | cons x xs ih =>
    simp only [List.foldlM_cons, bind_eq_ok, List.forall_mem_cons]
    constructor
    · rintro ⟨t, next, hx, hrest⟩
      exact ⟨(hstep s x hs).1 ⟨next, hx⟩, (ih (hkeep s x next hs hx)).1 ⟨t, hrest⟩⟩
    · rintro ⟨hx, hrest⟩
      obtain ⟨next, hnext⟩ := (hstep s x hs).2 hx
      obtain ⟨t, ht⟩ := (ih (hkeep s x next hs hnext)).2 hrest
      exact ⟨t, next, hnext, ht⟩

namespace Finding

variable {f g : Finding}

theorem mem_when {condition : Bool} : g ∈ when condition f ↔ condition = true ∧ g = f := by
  cases condition <;> simp [when]

theorem mem_ofResult {β : Type} {about : Error → Finding} {x : Except Error β} :
    g ∈ ofResult about x ↔ ∃ e, x = .error e ∧ g = about e := by
  cases x <;> simp [ofResult]

/-! ## Telling remarks apart -/

/-- The words with which an error is worded. A warning is told by its level. -/
def opening : Finding → String
  | badMapping _ => "mapping: "
  | badProtocol _ => "protocol: "
  | badName _ => "command '"
  | unknownPreset _ => "unknown hack preset '"
  | unknownHack _ => "unknown hack '"
  | listedTwice _ | noSynonyms _ | weightOutOfRange .. | noEntries => ""

/-- The openings of errors. -/
def openings : List String :=
  ["mapping: ", "protocol: ", "command '", "unknown hack preset '", "unknown hack '"]

theorem opening_mem_openings (h : f.level = .error) : f.opening ∈ openings := by
  cases f with
  | badMapping | badProtocol | badName | unknownPreset | unknownHack => simp [opening, openings]
  | listedTwice | noSynonyms | weightOutOfRange | noEntries => cases h

/-- A remark begins with the opening. -/
theorem exists_message_eq (f : Finding) : ∃ rest, f.message = f.opening ++ rest := by
  cases f with
  | badMapping e | badProtocol e => exact ⟨e.message, rfl⟩
  | badName name => exact ⟨name ++ "' is not a valid command name", String.append_assoc⟩
  | unknownPreset id => exact ⟨id ++ "'", String.append_assoc⟩
  | unknownHack id => exact ⟨id ++ "' in overrides", String.append_assoc⟩
  | listedTwice | noSynonyms | weightOutOfRange | noEntries => exact ⟨_, String.empty_append.symm⟩

theorem opening_prefix_message (f : Finding) : f.opening.toList <+: f.message.toList := by
  obtain ⟨rest, hrest⟩ := exists_message_eq f
  rw [hrest, String.toList_append]
  exact List.prefix_append _ _

/-- No opening begins another. -/
theorem openings_apart : ∀ a ∈ openings, ∀ b ∈ openings, a.toList <+: b.toList → a = b := by
  decide

/-- Two errors are about the same kind of thing. -/
def SameKind (g : Finding) : Finding → Prop
  | badMapping _ => ∃ e, g = badMapping e
  | badProtocol _ => ∃ e, g = badProtocol e
  | badName _ => ∃ name, g = badName name
  | unknownPreset _ => ∃ id, g = unknownPreset id
  | unknownHack _ => ∃ id, g = unknownHack id
  | listedTwice _ | noSynonyms _ | weightOutOfRange .. | noEntries => False

theorem sameKind_of_opening_eq (hf : f.level = .error) (hg : g.level = .error)
    (h : f.opening = g.opening) : g.SameKind f := by
  cases f <;> cases g <;> simp_all [opening, SameKind, level]

/-- **Remarks tell what they are about.** -/
theorem sameKind_of_remark_eq (hf : f.level = .error) (h : f.remark = g.remark) :
    g.level = .error ∧ g.SameKind f := by
  have hlevel : f.level = g.level := congrArg Remark.level h
  have hmessage : f.message = g.message := congrArg Remark.message h
  have hg : g.level = .error := hlevel ▸ hf
  have hfirst := opening_prefix_message f
  have hsecond := opening_prefix_message g
  rw [hmessage] at hfirst
  refine ⟨hg, sameKind_of_opening_eq hf hg ?_⟩
  rcases List.prefix_or_prefix_of_prefix hfirst hsecond with hprefix | hprefix
  · exact openings_apart _ (opening_mem_openings hf) _ (opening_mem_openings hg) hprefix
  · exact (openings_apart _ (opening_mem_openings hg) _ (opening_mem_openings hf) hprefix).symm

end Finding

namespace Config

open Finding

variable {c : Config} {f : Finding}

/-! ## What is found -/

/-- What an error says of a configuration. -/
def Holds (c : Config) : Finding → Prop
  | badMapping e => c.mapping.validate = .error e
  | badProtocol e => c.protocol.validate = .error e
  | badName name => ∃ e ∈ c.commands, e.name = name ∧ Name.isValid name = false
  | unknownPreset id => c.hacks.preset = id ∧ Preset.find? id = none
  | unknownHack id => id ∈ c.hacks.overrides.keys ∧ HackSet.standard.get? id = none
  | listedTwice _ | noSynonyms _ | weightOutOfRange .. | noEntries => False

/-- Of the entries, only invalid names are errors. -/
theorem mem_entriesFindings (hf : f.level = .error) (before : List String)
    (es : List CommandEntry) :
    f ∈ entriesFindings before es ↔
      ∃ e ∈ es, Name.isValid e.name = false ∧ f = badName e.name := by
  induction es generalizing before with
  | nil => simp [entriesFindings]
  | cons e es ih =>
    have hentry : f ∈ entryFindings before e ↔
        Name.isValid e.name = false ∧ f = badName e.name := by
      unfold entryFindings
      simp only [List.mem_append, mem_when, List.mem_map, Bool.not_eq_true']
      constructor
      · rintro (((hname | ⟨-, rfl⟩) | ⟨-, rfl⟩) | ⟨s, -, rfl⟩)
        · exact hname
        all_goals cases hf
      · exact fun hname => .inl (.inl (.inl hname))
    unfold entriesFindings
    rw [List.mem_append, hentry, ih]
    simp

theorem mem_hackFindings {h : HackChoice} :
    f ∈ hackFindings h ↔ (Preset.find? h.preset = none ∧ f = .unknownPreset h.preset) ∨
      ∃ id ∈ h.overrides.keys, HackSet.standard.get? id = none ∧ f = .unknownHack id := by
  unfold hackFindings
  simp only [List.mem_append, mem_when, List.mem_map, List.mem_filter, Option.isNone_iff_eq_none,
    and_assoc, eq_comm (b := f)]

/-- **An error is found** exactly where it holds. -/
theorem mem_findings_iff (hf : f.level = .error) : f ∈ c.findings ↔ c.Holds f := by
  unfold findings
  simp only [List.mem_append, mem_ofResult, mem_entriesFindings hf, mem_hackFindings, mem_when]
  cases f with
  | badMapping | badProtocol => simp [Holds]
  | badName name =>
    simp only [reduceCtorEq, and_false, exists_false, false_or, or_false, badName.injEq, Holds]
    exact exists_congr fun e => and_congr_right fun _ =>
      ⟨fun ⟨hname, h⟩ => ⟨h.symm, h ▸ hname⟩, fun ⟨h, hname⟩ => ⟨h ▸ hname, h.symm⟩⟩
  | unknownPreset id =>
    simp only [reduceCtorEq, and_false, exists_false, false_or, or_false, unknownPreset.injEq,
      Holds]
    exact ⟨fun ⟨hnone, h⟩ => ⟨h.symm, h ▸ hnone⟩, fun ⟨h, hnone⟩ => ⟨h ▸ hnone, h.symm⟩⟩
  | unknownHack id => simp [Holds]
  | listedTwice | noSynonyms | weightOutOfRange | noEntries => cases hf

/-- The remark of a finding is on the report. -/
def Reports (c : Config) (f : Finding) : Prop := f.remark ∈ c.validate

theorem reports_of_holds (hf : f.level = .error) (h : c.Holds f) : c.Reports f :=
  List.mem_map_of_mem ((mem_findings_iff hf).2 h)

/-- **What is reported as an error holds**, of something of the same kind. -/
theorem exists_holds_of_reports (hf : f.level = .error) (h : c.Reports f) :
    ∃ g, c.Holds g ∧ g.SameKind f := by
  obtain ⟨g, hg, hremark⟩ := List.mem_map.1 h
  obtain ⟨hlevel, hkind⟩ := sameKind_of_remark_eq hf hremark.symm
  exact ⟨g, (mem_findings_iff hlevel).1 hg, hkind⟩

/-- Behind every remark at the level of an error there is something that holds. -/
theorem exists_holds_of_level {r : Remark} (hr : r ∈ c.validate) (hlevel : r.level = .error) :
    ∃ g, c.Holds g := by
  obtain ⟨g, hg, rfl⟩ := List.mem_map.1 hr
  exact ⟨g, (mem_findings_iff hlevel).1 hg⟩

/-! ## What can be built -/

/-- The catalog can be built when every name is valid. -/
theorem exists_catalog_iff :
    (∃ catalog, c.catalog = .ok catalog) ↔ ∀ e ∈ c.commands, Name.isValid e.name = true :=
  exists_foldlM_eq_ok (I := fun _ => True)
    (fun catalog e _ => by simp only [Catalog.register_eq_ok]; simp) (fun _ _ _ _ _ => trivial)
    c.commands trivial

theorem exists_mapper_iff :
    (∃ m, c.mapper = .ok m) ↔
      c.mapping.validate = .ok () ∧ ∀ e ∈ c.commands, Name.isValid e.name = true := by
  simp only [mapper_eq_ok, ← exists_catalog_iff]
  constructor
  · rintro ⟨m, hmapping, catalog, hcatalog, -⟩
    exact ⟨hmapping, catalog, hcatalog⟩
  · rintro ⟨hmapping, catalog, hcatalog⟩
    exact ⟨_, hmapping, catalog, hcatalog, rfl⟩

/-- A hack can be switched when there is one of that id; switching keeps the ids. -/
theorem setEnabled_eq_ok {s t : HackSet} {id : String} {enabled : Bool} :
    s.setEnabled id enabled = .ok t ↔
      (s.get? id).isSome = true ∧ ⟨HackSet.switchFirst id enabled s.hacks⟩ = t := by
  unfold HackSet.setEnabled
  split <;> simp [*]

/-- The set of hacks can be built when the preset is there and every switch is for a hack. -/
theorem exists_hackSet_iff :
    (∃ s, c.hackSet = .ok s) ↔ (Preset.find? c.hacks.preset).isSome = true ∧
      ∀ id ∈ c.hacks.overrides.keys, (HackSet.standard.get? id).isSome = true := by
  unfold hackSet
  cases Preset.find? c.hacks.preset with
  | none => simp
  | some p =>
    simp only [Option.isSome_some, true_and]
    unfold Table.keys
    rw [List.forall_mem_map]
    -- whatever was switched before, the ids are those of the hacks to start with
    refine exists_foldlM_eq_ok
      (I := fun s : HackSet => s.hacks.map (·.id) = HackSet.standard.hacks.map (·.id))
      (fun s o hs => ?_) (fun s o t hs ht => ?_) _ (HackSet.map_id_applyPreset _ p)
    · simp only [setEnabled_eq_ok, HackSet.isSome_get?_congr hs]
      simp
    · obtain ⟨-, rfl⟩ := setEnabled_eq_ok.1 ht
      exact (HackSet.map_id_switchFirst _ _ _).trans hs

theorem exists_protocol_iff :
    (∃ p, c.protocol.make = .ok p) ↔ c.protocol.validate = .ok () := by
  simp only [Protocol.make_eq_ok]
  exact ⟨fun ⟨_, h, _⟩ => h, fun h => ⟨_, h, rfl⟩⟩

/-- The desk can be built when all of its stages can. -/
theorem exists_desk_iff :
    (∃ d, c.desk = .ok d) ↔ (∃ m, c.mapper = .ok m) ∧ (∃ p, c.protocol.make = .ok p) ∧
      ∃ s, c.hackSet = .ok s := by
  simp only [desk_eq_ok, exists_protocol_iff, mapper_eq_ok]
  constructor
  · rintro ⟨d, hmapping, hprotocol, catalog, hacks, hcatalog, hhacks, -⟩
    exact ⟨⟨_, hmapping, catalog, hcatalog, rfl⟩, hprotocol, hacks, hhacks⟩
  · rintro ⟨⟨m, hmapping, catalog, hcatalog, -⟩, hprotocol, hacks, hhacks⟩
    exact ⟨_, hmapping, hprotocol, catalog, hacks, hcatalog, hhacks, rfl⟩

/-! ## What is reported -/

/-- **A mapper cannot be built** exactly when a threshold or a name is reported. -/
theorem mapper_fails_iff :
    (∃ e, c.mapper = .error e) ↔
      (∃ e, c.Reports (.badMapping e)) ∨ ∃ e ∈ c.commands, c.Reports (.badName e.name) := by
  rw [exists_error_iff, exists_mapper_iff]
  constructor
  · intro hfails
    cases hmapping : c.mapping.validate with
    | error e => exact .inl ⟨e, reports_of_holds rfl hmapping⟩
    | ok =>
      simp only [hmapping, true_and, not_forall, Bool.not_eq_true] at hfails
      obtain ⟨e, he, hname⟩ := hfails
      exact .inr ⟨e, he, reports_of_holds rfl ⟨e, he, rfl, hname⟩⟩
  · rintro (⟨e, hreport⟩ | ⟨e, he, hreport⟩) ⟨hmapping, hnames⟩
    · obtain ⟨g, hg, other, rfl⟩ := exists_holds_of_reports rfl hreport
      rw [Holds, hmapping] at hg
      cases hg
    · obtain ⟨g, hg, other, rfl⟩ := exists_holds_of_reports rfl hreport
      obtain ⟨entry, hentry, rfl, hname⟩ := hg
      rw [hnames entry hentry] at hname
      cases hname

/-- **A protocol is refused** exactly when it is reported. -/
theorem protocol_fails_iff :
    (∃ e, c.protocol.make = .error e) ↔ ∃ e, c.Reports (.badProtocol e) := by
  rw [exists_error_iff, exists_protocol_iff]
  constructor
  · intro hfails
    cases hprotocol : c.protocol.validate with
    | error e => exact ⟨e, reports_of_holds rfl hprotocol⟩
    | ok => exact absurd hprotocol hfails
  · rintro ⟨e, hreport⟩ hprotocol
    obtain ⟨g, hg, other, rfl⟩ := exists_holds_of_reports rfl hreport
    rw [Holds, hprotocol] at hg
    cases hg

/-- **The hacks cannot be chosen** exactly when the preset or a switch is reported. -/
theorem hackSet_fails_iff :
    (∃ e, c.hackSet = .error e) ↔ c.Reports (.unknownPreset c.hacks.preset) ∨
      ∃ id ∈ c.hacks.overrides.keys, c.Reports (.unknownHack id) := by
  rw [exists_error_iff, exists_hackSet_iff]
  constructor
  · intro hfails
    cases hpreset : Preset.find? c.hacks.preset with
    | none => exact .inl (reports_of_holds rfl ⟨rfl, hpreset⟩)
    | some p =>
      simp only [hpreset, Option.isSome_some, true_and, not_forall, Bool.not_eq_true,
        Option.isSome_eq_false_iff, Option.isNone_iff_eq_none] at hfails
      obtain ⟨id, hid, hnone⟩ := hfails
      exact .inr ⟨id, hid, reports_of_holds rfl ⟨hid, hnone⟩⟩
  · rintro (hreport | ⟨id, hid, hreport⟩) ⟨hpreset, hswitches⟩
    · obtain ⟨g, hg, other, rfl⟩ := exists_holds_of_reports rfl hreport
      obtain ⟨rfl, hnone⟩ := hg
      rw [hnone] at hpreset
      cases hpreset
    · obtain ⟨g, hg, other, rfl⟩ := exists_holds_of_reports rfl hreport
      obtain ⟨hother, hnone⟩ := hg
      have hsome := hswitches other hother
      rw [hnone] at hsome
      cases hsome

/-- The desk cannot be built exactly when one of its stages cannot. -/
theorem desk_fails_iff :
    (∃ e, c.desk = .error e) ↔ (∃ e, c.mapper = .error e) ∨
      (∃ e, c.protocol.make = .error e) ∨ ∃ e, c.hackSet = .error e := by
  simp only [exists_error_iff, exists_desk_iff]
  tauto

/-- **Validation predicts what can be built.** A remark at the level of an error is on the report
exactly when the desk cannot be built. Stage by stage, the mapper fails exactly when its thresholds
or the name of a command are reported, the protocol when it is reported itself, and the set of hacks
when the preset or a switch is. Where there are no remarks but warnings everything can be built. -/
theorem validate_predicts_desk (c : Config) :
    ((∃ r ∈ c.validate, r.level = .error) ↔ ∃ e, c.desk = .error e) ∧
      ((∃ e, c.mapper = .error e) ↔
        (∃ e, c.Reports (.badMapping e)) ∨ ∃ e ∈ c.commands, c.Reports (.badName e.name)) ∧
      ((∃ e, c.protocol.make = .error e) ↔ ∃ e, c.Reports (.badProtocol e)) ∧
      ((∃ e, c.hackSet = .error e) ↔ c.Reports (.unknownPreset c.hacks.preset) ∨
        ∃ id ∈ c.hacks.overrides.keys, c.Reports (.unknownHack id)) ∧
      ((∀ r ∈ c.validate, r.level = .warning) →
        (∃ m, c.mapper = .ok m) ∧ (∃ p, c.protocol.make = .ok p) ∧ (∃ s, c.hackSet = .ok s) ∧
          ∃ d, c.desk = .ok d) := by
  have hdesk : (∃ r ∈ c.validate, r.level = .error) ↔ ∃ e, c.desk = .error e := by
    rw [desk_fails_iff, mapper_fails_iff, protocol_fails_iff, hackSet_fails_iff]
    constructor
    · rintro ⟨r, hr, hlevel⟩
      obtain ⟨g, hg⟩ := exists_holds_of_level hr hlevel
      cases g with
      | badMapping e => exact .inl (.inl ⟨e, reports_of_holds rfl hg⟩)
      | badProtocol e => exact .inr (.inl ⟨e, reports_of_holds rfl hg⟩)
      | badName name =>
        obtain ⟨e, he, rfl, hname⟩ := hg
        exact .inl (.inr ⟨e, he, reports_of_holds rfl ⟨e, he, rfl, hname⟩⟩)
      | unknownPreset id =>
        obtain ⟨rfl, hnone⟩ := hg
        exact .inr (.inr (.inl (reports_of_holds rfl ⟨rfl, hnone⟩)))
      | unknownHack id => exact .inr (.inr (.inr ⟨id, hg.1, reports_of_holds rfl hg⟩))
      | listedTwice | noSynonyms | weightOutOfRange | noEntries => exact hg.elim
    · rintro ((⟨e, h⟩ | ⟨e, -, h⟩) | ⟨e, h⟩ | h | ⟨id, -, h⟩) <;> exact ⟨_, h, rfl⟩
  refine ⟨hdesk, mapper_fails_iff, protocol_fails_iff, hackSet_fails_iff, fun hwarnings => ?_⟩
  have hbuilt : ∃ d, c.desk = .ok d := by
    by_contra hnone
    obtain ⟨r, hr, hlevel⟩ := hdesk.2 (exists_error_iff.2 hnone)
    rw [hwarnings r hr] at hlevel
    cases hlevel
  obtain ⟨hmapper, hprotocol, hhacks⟩ := exists_desk_iff.1 hbuilt
  exact ⟨hmapper, hprotocol, hhacks, hbuilt⟩

end Config

end CommandDesk
