import CommandDesk.Proofs.Confirmation.Numbers
import CommandDesk.Proofs.Desk.Repair
import CommandDesk.Proofs.Protocol.Precedence

/-!
# Irreversible commands behind an ambiguous one

Whether a command is irreversible is asked of the command that was resolved. The
options for an ambiguous command are other commands, and the one that is chosen
is final. An irreversible command that takes the place of what was given is
therefore always confirmed as such, while one that is only a candidate can be
chosen as a repair. When it can is stated exactly (`settlesOn_irreversible`): the
command that was resolved is not irreversible itself, its mapping is below the
threshold of the protocol, and the candidate is among those that are offered.
-/

namespace CommandDesk

/-- The candidate cannot be undone. -/
def Candidate.Irreversible {α : Type} (o : Candidate α) : Prop :=
  Name.verb o.command ∈ irreversibleVerbs.map (·.1)

instance {α : Type} (o : Candidate α) : Decidable o.Irreversible :=
  inferInstanceAs (Decidable (_ ∈ _))

/-- Two commands in place of the same one are told apart by their text. -/
theorem Command.eq_of_text_retarget (c : Command) {a b : String} (ha : Name.isValid a = true)
    (hb : Name.isValid b = true) (h : (c.retarget a).text = (c.retarget b).text) : a = b := by
  -- the input and the parameters that follow the name are the same
  have hname : (c.retarget a).name = (c.retarget b).name := by
    unfold text at h
    simpa [retarget] using h
  rwa [c.name_retarget ha, c.name_retarget hb] at hname

theorem Command.verb_retarget (c : Command) {s : String} (h : Name.isValid s = true) :
    (c.retarget s).verb = Name.verb s := by
  unfold retarget ofName
  simp only [Name.normalize_of_isValid h]

/-- The target of a mapping is one of its candidates. -/
theorem Mapping.exists_candidate_of_target {α : Type} {m : Mapping α} {target : String}
    (h : target ∈ m.target) : ∃ o ∈ m.candidates, o.command = target := by
  unfold candidates
  rw [h]
  exact ⟨_, List.mem_cons_self, rfl⟩

/-! ## Replies that settle -/

namespace Confirmation

variable {α : Type} {r : Confirmation α} {i : UInt64} {text : String}

/-- Answering with the number confirms, and this is the command that is confirmed. -/
structure SettlesOn (r : Confirmation α) (i : UInt64) (text : String) : Prop where
  confirmed : (r.apply (.index i)).status = .confirmed
  final : (r.apply (.index i)).final = some text

instance : Decidable (r.SettlesOn i text) :=
  decidable_of_iff
    ((r.apply (.index i)).status = .confirmed ∧ (r.apply (.index i)).final = some text)
    ⟨fun h => ⟨h.1, h.2⟩, fun h => ⟨h.confirmed, h.final⟩⟩

/-- **A number settles a pending confirmation** on the suggestion in its place, and on nothing
else. -/
theorem settlesOn_iff (hp : r.status = .pending) :
    r.SettlesOn i text ↔
      1 ≤ i.toNat ∧ ∃ s, r.suggestions[i.toNat - 1]? = some s ∧ s.command = text := by
  obtain ⟨happly, -⟩ := apply_number hp i
  constructor
  · rintro ⟨hconfirmed, hfinal⟩
    rw [happly] at hconfirmed hfinal
    unfold select at hconfirmed hfinal
    -- without a suggestion of that number the reply changes nothing
    split at hconfirmed
    · rw [hp] at hconfirmed
      cases hconfirmed
    · rename_i hne
      rw [if_neg hne] at hfinal
      split at hconfirmed
      · rename_i s hs
        rw [hs] at hfinal
        have hpos : i.toNat ≠ 0 := fun hzero => hne (UInt64.toNat_inj.1 hzero)
        exact ⟨by omega, s, hs, Option.some.inj hfinal⟩
      · rw [hp] at hconfirmed
        cases hconfirmed
  · rintro ⟨hi, s, hs, rfl⟩
    rw [select_of_getElem? hi hs] at happly
    exact ⟨by rw [happly], by rw [happly]⟩

/-- Where no list is too long for its numbers, some number settles a pending confirmation on each
suggestion. -/
theorem exists_settlesOn_iff (hp : r.status = .pending)
    (hfits : r.suggestions.length < UInt64.size) :
    (∃ i, r.SettlesOn i text) ↔ ∃ s ∈ r.suggestions, s.command = text := by
  constructor
  · rintro ⟨i, hi⟩
    obtain ⟨-, s, hs, hcommand⟩ := (settlesOn_iff hp).1 hi
    exact ⟨s, List.mem_of_getElem? hs, hcommand⟩
  · rintro ⟨s, hs, hcommand⟩
    obtain ⟨k, hk⟩ := List.mem_iff_getElem?.1 hs
    have hlt : k < r.suggestions.length := (List.getElem?_eq_some_iff.1 hk).1
    have hnumber : (UInt64.ofNat (k + 1)).toNat = k + 1 :=
      UInt64.toNat_ofNat_of_lt' (by omega)
    refine ⟨UInt64.ofNat (k + 1), (settlesOn_iff hp).2 ?_⟩
    rw [hnumber, Nat.add_sub_cancel]
    exact ⟨by omega, s, hk, hcommand⟩

/-- Where nothing is asked there is nothing to settle. -/
theorem not_settlesOn_unneeded : ¬ (unneeded : Confirmation α).SettlesOn i text := by
  rintro hi
  obtain ⟨-, s, hs, -⟩ := (settlesOn_iff rfl).1 hi
  cases hs

/-- What the protocol draws up can be settled on what it offers. -/
theorem exists_settlesOn_check [Grade α] (p : Protocol α) (command : Command) (c : Context α) :
    (∃ i, (p.check command c).SettlesOn i text) ↔
      ∃ s ∈ (p.check command c).suggestions, s.command = text := by
  rcases p.check_cases command c with ⟨-, hnone⟩ | ⟨before, o, after, t, hsplit, -, ht, hcheck⟩
  · rw [hnone]
    exact exists_settlesOn_iff rfl (show 0 < UInt64.size by decide)
  · have ho : o ∈ Protocol.occasions := by simp [hsplit]
    have hcomplete := complete_ask ho ht
    rw [hcheck]
    exact exists_settlesOn_iff hcomplete.pending
      (Nat.lt_of_le_of_lt hcomplete.few p.maxSuggestions.toNat_lt)

end Confirmation

/-! ## The occasions for a mapping -/

/-- **What a mapping without other signals is asked about**: an irreversible verb as such, any other
verb as ambiguous if the confidence is below the threshold, and nothing besides. -/
theorem Protocol.check_mapping_cases {α : Type} [Grade α] (p : Protocol α) (command : Command)
    (r : Mapping α) (missing : List String) :
    let response := p.check command { r.context with missingParams := missing }
    (command.verb ∈ irreversibleVerbs.map (·.1) ∧ response.mode = some .highRiskConfirm) ∨
      (command.verb ∉ irreversibleVerbs.map (·.1) ∧ r.confidence < p.confidence ∧
        response.mode = some .ambiguousRepair) ∨
      (command.verb ∉ irreversibleVerbs.map (·.1) ∧ ¬ r.confidence < p.confidence ∧
        response = .unneeded) := by
  intro response
  by_cases hverb : command.verb ∈ irreversibleVerbs.map (·.1)
  · exact .inl ⟨hverb, mode_check_eq_highRiskConfirm_iff.2 hverb⟩
  refine .inr ?_
  by_cases hlt : r.confidence < p.confidence
  · -- the verb leaves no trigger before the one of the confidence
    have hrisk : irreversibleSeverity? command.verb = none := by
      rw [← Option.not_isSome_iff_eq_none, isSome_irreversibleSeverity?]
      exact hverb
    obtain ⟨t, hhead, hkind⟩ : ∃ t,
        (p.limits.checkAll command { r.context with missingParams := missing }).head? = some t ∧
          t.kind = .ambiguousVerb := by
      have hlow : ({ r.context with missingParams := missing } : Context α).confidence <
          p.limits.confidence := hlt
      simp [Limits.checkAll, Limits.checks, Limits.checkHighRisk, hrisk, Limits.checkAmbiguousVerb,
        hlow, Trigger.fired, Evidence.kind]
    obtain ⟨mode, hmode, hcheck⟩ := check_of_head hhead (by rw [hkind]; decide)
    rw [hkind] at hmode
    obtain rfl : Mode.ambiguousRepair = mode := Option.some.inj hmode
    exact .inl ⟨hverb, hlt, congrArg (·.mode) hcheck⟩
  · refine .inr ⟨hverb, hlt, ?_⟩
    rcases p.check_cases command { r.context with missingParams := missing } with
      ⟨-, hnone⟩ | ⟨-, o, -, t, -, -, -, hcheck⟩
    · exact hnone
    · have htriggered := (p.triggered_check_mapping command r missing).1 (by rw [hcheck]; rfl)
      exact absurd htriggered (not_or.2 ⟨hlt, hverb⟩)

namespace Desk

variable {c : Config} {d : Desk Float} {command : Command}

theorem check_resolve_cases (hd : c.desk = .ok d) (command : Command) :
    let r := d.resolve command
    let response := d.protocol.check r.command r.context
    (r.command.verb ∈ irreversibleVerbs.map (·.1) ∧ response.mode = some .highRiskConfirm) ∨
      (r.command.verb ∉ irreversibleVerbs.map (·.1) ∧
        r.mapping.confidence < c.protocol.confidence ∧ response.mode = some .ambiguousRepair) ∨
      (r.command.verb ∉ irreversibleVerbs.map (·.1) ∧
        ¬ r.mapping.confidence < c.protocol.confidence ∧ response = .unneeded) := by
  intro r response
  have hthreshold : d.protocol.confidence = c.protocol.confidence :=
    congrArg Protocol.confidence (Config.mapper_of_desk_eq_ok hd).2.2
  have hcases := d.protocol.check_mapping_cases r.command r.mapping
    (d.mapper.catalog.missingParams r.command)
  rw [← context_resolve, hthreshold] at hcases
  exact hcases

/-- No command is listed twice among the candidates. -/
theorem eq_of_mem_candidates (hd : c.desk = .ok d) {o q : Candidate Float}
    (ho : o ∈ (d.resolve command).mapping.candidates)
    (hq : q ∈ (d.resolve command).mapping.candidates) (h : q.command = o.command) : q = o := by
  have hsound : d.mapper.vocabulary.Sound := by
    rw [(Config.mapper_of_desk_eq_ok hd).1]
    exact c.sound_vocabulary
  rw [mapping_resolve] at ho hq
  exact List.inj_on_of_nodup_map (Mapper.nodup_candidates_map hsound _ _) hq ho h

/-- The commands that are offered for an ambiguous one. -/
theorem commands_check_resolve (hd : c.desk = .ok d)
    (hmode : (d.protocol.check (d.resolve command).command (d.resolve command).context).mode =
      some .ambiguousRepair) :
    (d.protocol.check (d.resolve command).command (d.resolve command).context).suggestions.map
        (·.command) =
      ((d.resolve command).mapping.candidates.take c.protocol.maxSuggestions.toNat).map fun o =>
        (command.retarget o.command).text := by
  have hoffered := congrArg (List.map Prod.fst) (map_suggestions_check_resolve hd hmode)
  simpa only [List.map_map, Function.comp_def] using hoffered

/-- **Which candidates an ambiguous command can be settled on**: those that are offered. -/
theorem exists_settlesOn_repair (hd : c.desk = .ok d)
    (hmode : (d.protocol.check (d.resolve command).command (d.resolve command).context).mode =
      some .ambiguousRepair) {o : Candidate Float}
    (ho : o ∈ (d.resolve command).mapping.candidates) :
    (∃ i, (d.protocol.check (d.resolve command).command
        (d.resolve command).context).SettlesOn i (command.retarget o.command).text) ↔
      o ∈ (d.resolve command).mapping.candidates.take c.protocol.maxSuggestions.toNat := by
  have hvalid : ∀ q ∈ (d.resolve command).mapping.candidates, Name.isValid q.command = true := by
    rw [mapping_resolve]
    exact fun q hq => Config.isValid_of_mem_candidates hd hq
  rw [Confirmation.exists_settlesOn_check, ← List.mem_map, commands_check_resolve hd hmode,
    List.mem_map]
  constructor
  · rintro ⟨q, hq, htext⟩
    -- what is offered under the same text is the same candidate
    have hmem := List.mem_of_mem_take hq
    have hsame := command.eq_of_text_retarget (hvalid q hmem) (hvalid o ho) htext
    rw [← eq_of_mem_candidates hd ho hmem hsame]
    exact hq
  · exact fun hoffer => ⟨o, hoffer, rfl⟩

/-- A target that takes the place of the command brings its verb along. -/
theorem verb_resolve_of_direct (hd : c.desk = .ok d)
    (hdirect : (d.resolve command).mapping.requiresConfirmation = false) {target : String}
    (ht : target ∈ (d.resolve command).mapping.target) :
    (d.resolve command).command.verb = Name.verb target := by
  rcases command_resolve_cases d command with ⟨t, hsome, -, hcommand⟩ | ⟨hkept, -⟩
  · obtain rfl : t = target := Option.some.inj (hsome.symm.trans ht)
    obtain ⟨o, ho, rfl⟩ := Mapping.exists_candidate_of_target ht
    rw [mapping_resolve] at ho
    rw [hcommand, command.verb_retarget (Config.isValid_of_mem_candidates hd ho)]
  · rw [ht, hdirect] at hkept
    rcases hkept with hkept | hkept <;> cases hkept

/-- **How an irreversible candidate comes to be confirmed.** If the command that was resolved is
irreversible itself, as it is when an irreversible target takes its place, the confirmation is the
one for irreversible commands. If not, a candidate can still be chosen to repair the command,
exactly when the confidence is below the threshold of the protocol and the candidate is among those
that are offered. No other confirmation is settled on a candidate. -/
theorem settlesOn_irreversible (c : Config) (d : Desk Float) (command : Command)
    (hd : c.desk = .ok d) :
    let r := d.resolve command
    let response := d.protocol.check r.command r.context
    (∀ o ∈ r.mapping.candidates, o.Irreversible →
      ∀ i, response.SettlesOn i (command.retarget o.command).text →
        (r.command.verb ∈ irreversibleVerbs.map (·.1) → response.mode = some .highRiskConfirm) ∧
        (r.command.verb ∉ irreversibleVerbs.map (·.1) →
          response.mode = some .ambiguousRepair ∧
            r.mapping.confidence < c.protocol.confidence)) ∧
      (∀ o ∈ r.mapping.candidates, o.Irreversible →
        ((∃ i, response.SettlesOn i (command.retarget o.command).text ∧
            response.mode ≠ some .highRiskConfirm) ↔
          r.command.verb ∉ irreversibleVerbs.map (·.1) ∧
            r.mapping.confidence < c.protocol.confidence ∧
              o ∈ r.mapping.candidates.take c.protocol.maxSuggestions.toNat)) ∧
      (∀ target ∈ r.mapping.target, r.mapping.requiresConfirmation = false →
        Name.verb target ∈ irreversibleVerbs.map (·.1) →
          response.mode = some .highRiskConfirm) := by
  have hcases := check_resolve_cases hd command
  dsimp only at hcases ⊢
  refine ⟨fun o _ _ i hi => ?_, fun o ho _ => ?_, fun target ht hdirect hirreversible => ?_⟩
  · rcases hcases with ⟨hverb, hmode⟩ | ⟨hverb, hlt, hmode⟩ | ⟨hverb, hle, hnone⟩
    · exact ⟨fun _ => hmode, fun hother => absurd hverb hother⟩
    · exact ⟨fun hother => absurd hother hverb, fun _ => ⟨hmode, hlt⟩⟩
    · -- without a confirmation there is nothing to settle
      rw [hnone] at hi
      exact absurd hi Confirmation.not_settlesOn_unneeded
  · rcases hcases with ⟨hverb, hmode⟩ | ⟨hverb, hlt, hmode⟩ | ⟨hverb, hle, hnone⟩
    · exact iff_of_false (fun ⟨_, _, hother⟩ => hother hmode) fun ⟨hother, _⟩ => hother hverb
    · rw [← exists_settlesOn_repair hd hmode ho]
      constructor
      · rintro ⟨i, hi, -⟩
        exact ⟨hverb, hlt, i, hi⟩
      · rintro ⟨-, -, i, hi⟩
        exact ⟨i, hi, by rw [hmode]; decide⟩
    · rw [hnone]
      exact iff_of_false (fun ⟨_, hi, _⟩ => Confirmation.not_settlesOn_unneeded hi)
        fun ⟨_, hlt, _⟩ => hle hlt
  · have hverb := verb_resolve_of_direct hd hdirect ht
    -- the target has taken the place, so its verb is the one that is checked
    rw [← hverb] at hirreversible
    exact Protocol.mode_check_eq_highRiskConfirm_iff.2 hirreversible

/-! ## Two nouns for one verb -/

/-- A configuration with one command, which is irreversible, and with one synonym for its verb. -/
def ofEraser : Config :=
  { Config.standard with
    commands := [.ofName "delete-file" (Table.empty.insert "erase" 92.0)] }

/-- With the noun of the irreversible command the verb is close enough to take its place, and the
confirmation is the one for irreversible commands. -/
theorem mode_check_erase_file :
    ∃ d, ofEraser.desk = .ok d ∧
      let r := d.resolve (.ofName "erase-file")
      r.mapping.target = some "delete-file" ∧
        (d.protocol.check r.command r.context).mode = some .highRiskConfirm := by
  have hrun : (match ofEraser.desk with
      | .ok d =>
        decide ((d.resolve (.ofName "erase-file")).mapping.target = some "delete-file") &&
          !(d.resolve (.ofName "erase-file")).mapping.requiresConfirmation
      | .error _ => false) = true := by decide +kernel
  split at hrun
  · rename_i d hd
    obtain ⟨htarget, hdirect⟩ := Bool.and_eq_true_iff.1 hrun
    have htarget := of_decide_eq_true htarget
    obtain ⟨-, -, htaken⟩ := settlesOn_irreversible ofEraser d (.ofName "erase-file") hd
    exact ⟨d, hd, htarget,
      htaken "delete-file" htarget ((Bool.not_eq_true' _).mp hdirect) (by decide)⟩
  · cases hrun

/-- With another noun the irreversible command is offered as a repair, and the first number confirms
it. -/
theorem settlesOn_erase_data :
    ∃ d, ofEraser.desk = .ok d ∧
      let r := d.resolve (.ofName "erase-data")
      let response := d.protocol.check r.command r.context
      ∃ o ∈ r.mapping.candidates, o.Irreversible ∧
        response.SettlesOn 1 ((Command.ofName "erase-data").retarget o.command).text ∧
          response.mode = some .ambiguousRepair := by
  have hrun : (match ofEraser.desk with
      | .ok d =>
        let r := d.resolve (.ofName "erase-data")
        let response := d.protocol.check r.command r.context
        r.mapping.candidates.any fun o =>
          decide (o.Irreversible ∧
            response.SettlesOn 1 ((Command.ofName "erase-data").retarget o.command).text ∧
              response.mode = some .ambiguousRepair)
      | .error _ => false) = true := by decide +kernel
  split at hrun
  · rename_i d hd
    obtain ⟨o, ho, h⟩ := List.any_eq_true.1 hrun
    exact ⟨d, hd, o, ho, of_decide_eq_true h⟩
  · cases hrun

end Desk

end CommandDesk
