import CommandDesk.Proofs.Protocol
import CommandDesk.Proofs.Trigger

/-!
# The protocol and the list of triggers

The protocol goes through its occasions, and the checks are listed on their own.
Both are in the same order, with missing parameters at the end of the list only
(`checks_eq`), so what the protocol draws up can be read off the first trigger of
the list (`check_eq_ask_head`). The two then agree on when a confirmation is asked
for, on its kind, its severity and its mode (`check_agrees`).
-/

namespace CommandDesk

namespace Protocol

variable {α : Type} [Grade α]

/-- **One order for both**: the checks are those of the occasions, then the one for missing
parameters. -/
theorem checks_eq :
    (Limits.checks : List (Limits α → Command → Context α → Option (Trigger α))) =
      occasions.map (·.2) ++ [Limits.checkMissingRequired] := rfl

/-- What fires: the triggers of the occasions, then that of missing parameters. -/
theorem checkAll_eq (p : Protocol α) (command : Command) (c : Context α) :
    p.limits.checkAll command c =
      occasions.filterMap (fun o => o.2 p.limits command c) ++
        (p.limits.checkMissingRequired command c).toList := by
  have hrequired : [Limits.checkMissingRequired].filterMap (fun check => check p.limits command c) =
      (p.limits.checkMissingRequired command c).toList := by
    cases h : p.limits.checkMissingRequired command c <;> simp [h]
  unfold Limits.checkAll
  rw [checks_eq, List.filterMap_append, List.filterMap_map, hrequired]
  rfl

/-- **The confirmation is read off the first trigger that fires**: it is asked for in the mode that
goes with its kind, if there is one. -/
theorem check_eq_ask_head (p : Protocol α) (command : Command) (c : Context α) :
    p.check command c =
      ((p.limits.checkAll command c).head?.bind fun t =>
        t.kind.mode?.map fun mode => p.ask mode t command c).getD .unneeded := by
  rw [checkAll_eq]
  rcases check_cases p command c with
    ⟨hnone, hcheck⟩ | ⟨before, o, after, t, hsplit, hbefore, ht, hcheck⟩
  · -- no occasion fires, so the list holds missing parameters or nothing
    have hsilent : occasions.filterMap (fun o => o.2 p.limits command c) = [] :=
      List.filterMap_eq_nil_iff.2 hnone
    rw [hcheck, hsilent]
    cases hm : p.limits.checkMissingRequired command c with
    | none => rfl
    | some t =>
      have hkind : t.kind = .missingRequired := Limits.kind_of_checkMissingRequired hm
      simp [hkind, TriggerKind.mode?]
  · -- the occasions before the one that fires leave no trigger before its own
    have hsilent : before.filterMap (fun o => o.2 p.limits command c) = [] :=
      List.filterMap_eq_nil_iff.2 hbefore
    have ho : o ∈ occasions := by simp [hsplit]
    obtain ⟨hmode, -⟩ := Limits.mode?_of_mem_occasions ho ht
    rw [hcheck, hsplit, List.filterMap_append, hsilent, List.nil_append]
    simp [ht, hmode]

variable {p : Protocol α} {command : Command} {c : Context α} {t : Trigger α}

/-- A trigger in the list goes with an occasion, unless it is that of missing parameters. -/
theorem exists_mode_of_mem_checkAll (h : t ∈ p.limits.checkAll command c)
    (hkind : t.kind ≠ .missingRequired) : ∃ mode, t.kind.mode? = some mode := by
  rw [checkAll_eq] at h
  rcases List.mem_append.1 h with h | h
  · obtain ⟨o, ho, ht⟩ := List.mem_filterMap.1 h
    exact ⟨o.1, (Limits.mode?_of_mem_occasions ho ht).1⟩
  · exact absurd (Limits.kind_of_checkMissingRequired (Option.mem_toList.1 h)) hkind

/-- The confirmation when the first trigger is not that of missing parameters. -/
theorem check_of_head (h : (p.limits.checkAll command c).head? = some t)
    (hkind : t.kind ≠ .missingRequired) :
    ∃ mode, t.kind.mode? = some mode ∧ p.check command c = p.ask mode t command c := by
  obtain ⟨mode, hmode⟩ := exists_mode_of_mem_checkAll (List.mem_of_head? h) hkind
  refine ⟨mode, hmode, ?_⟩
  rw [check_eq_ask_head, h]
  simp [hmode]

/-- Where the first trigger is that of missing parameters, or none fires, no confirmation is
needed. -/
theorem check_eq_unneeded
    (h : ∀ t ∈ (p.limits.checkAll command c).head?, t.kind = .missingRequired) :
    p.check command c = .unneeded := by
  rw [check_eq_ask_head]
  cases hhead : (p.limits.checkAll command c).head? with
  | none => rfl
  | some t =>
    have hkind : t.kind = .missingRequired := h t hhead
    simp [hkind, TriggerKind.mode?]

/-- A confirmation is asked for when the first trigger that fires goes with an occasion. -/
theorem triggered_check_iff_head :
    (p.check command c).triggered = true ↔
      ∃ t ∈ (p.limits.checkAll command c).head?, t.kind ≠ .missingRequired := by
  constructor
  · intro h
    cases hhead : (p.limits.checkAll command c).head? with
    | none =>
      rw [check_eq_ask_head, hhead] at h
      cases h
    | some t =>
      refine ⟨t, rfl, fun hkind => ?_⟩
      rw [check_eq_ask_head, hhead, Option.bind_some, hkind] at h
      cases h
  · rintro ⟨t, hhead, hkind⟩
    obtain ⟨mode, -, hcheck⟩ := check_of_head hhead hkind
    rw [hcheck]
    rfl

/-- An irreversible verb is asked about as such, whatever else there is, and no other verb is. -/
theorem mode_check_eq_highRiskConfirm_iff :
    (p.check command c).mode = some .highRiskConfirm ↔
      command.verb ∈ irreversibleVerbs.map (·.1) := by
  have hfires : (Limits.checkHighRisk p.limits command c).isSome = true ↔
      command.verb ∈ irreversibleVerbs.map (·.1) := by
    unfold Limits.checkHighRisk
    rw [Option.isSome_map, isSome_irreversibleSeverity?]
  rw [← hfires]
  constructor
  · intro hmode
    have ho : (Mode.highRiskConfirm, Limits.checkHighRisk (α := α)) ∈ occasions := by
      simp [occasions]
    obtain ⟨t, ht, -⟩ := exists_trigger_of_mode ho hmode
    rw [ht]
    rfl
  · intro h
    obtain ⟨t, ht⟩ := Option.isSome_iff_exists.1 h
    -- its check is the first of all
    have hhead : (p.limits.checkAll command c).head? = some t := by
      simp [Limits.checkAll, Limits.checks, ht]
    obtain ⟨severity, -, rfl⟩ := Option.map_eq_some_iff.1 ht
    rw [check_eq_ask_head, hhead]
    rfl

/-- **The protocol agrees with the list of triggers.** A confirmation is asked for exactly when
something fires and it is not missing parameters that come first. It has the kind and the severity
of the first trigger and the mode that goes with its kind, and is no more severe than the most
severe one. -/
theorem check_agrees (p : Protocol α) (command : Command) (c : Context α) :
    let triggers := p.limits.checkAll command c
    let r := p.check command c
    (r.triggered = true ↔ ∃ t ∈ triggers.head?, t.kind ≠ .missingRequired) ∧
      (∀ t ∈ triggers.head?, t.kind ≠ .missingRequired →
        r.kind = t.kind ∧ r.severity = t.severity ∧
          (∃ mode, t.kind.mode? = some mode ∧ r.mode = some mode) ∧
          r.severity ≤ (p.limits.mostSevere command c).severity) ∧
      (r.mode = some .highRiskConfirm ↔ command.verb ∈ irreversibleVerbs.map (·.1)) ∧
      ((∀ t ∈ triggers, t.kind = .missingRequired) → r = .unneeded) := by
  intro triggers r
  refine ⟨triggered_check_iff_head, ?_, mode_check_eq_highRiskConfirm_iff, fun h => ?_⟩
  · intro t ht hkind
    obtain ⟨mode, hmode, hr⟩ := check_of_head ht hkind
    have hseverity : r.severity = t.severity := congrArg (·.severity) hr
    refine ⟨congrArg (·.kind) hr, hseverity, ⟨mode, hmode, congrArg (·.mode) hr⟩, ?_⟩
    rw [hseverity]
    exact Limits.severity_le_mostSevere (List.mem_of_head? ht)
  · exact check_eq_unneeded fun t ht => h t (List.mem_of_head? ht)

end Protocol

end CommandDesk
