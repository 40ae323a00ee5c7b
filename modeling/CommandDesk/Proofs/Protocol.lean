import Mathlib.Data.List.Nodup
import CommandDesk.Protocol

/-!
# When the protocol asks

The protocol asks for a confirmation when one of its occasions fires. A context
that holds nothing but a mapping leaves two of them: a verb that is
irreversible, and a confidence below the threshold of the protocol.
-/

namespace CommandDesk

theorem isSome_irreversibleSeverity? {verb : String} :
    (irreversibleSeverity? verb).isSome = true ↔ verb ∈ irreversibleVerbs.map (·.1) := by
  simp [irreversibleSeverity?]

namespace Protocol

variable {α : Type} [Grade α]

/-- **What the protocol draws up**: the confirmation of the first occasion that fires, or none. -/
theorem check_cases (p : Protocol α) (command : Command) (c : Context α) :
    ((∀ o ∈ occasions, o.2 p.limits command c = none) ∧ p.check command c = .unneeded) ∨
      ∃ before o after t, occasions = before ++ o :: after ∧
        (∀ q ∈ before, q.2 p.limits command c = none) ∧ o.2 p.limits command c = some t ∧
          p.check command c = p.ask o.1 t command c := by
  unfold check Option.getD
  split
  · rename_i r hfind
    obtain ⟨before, o, after, hsplit, hr, hbefore⟩ := List.findSome?_eq_some_iff.1 hfind
    obtain ⟨t, ht, rfl⟩ := Option.map_eq_some_iff.1 hr
    exact .inr ⟨before, o, after, t, hsplit,
      fun q hq => Option.map_eq_none_iff.1 (hbefore q hq), ht, rfl⟩
  · rename_i hfind
    rw [List.findSome?_eq_none_iff] at hfind
    exact .inl ⟨fun o ho => Option.map_eq_none_iff.1 (hfind o ho), rfl⟩

/-- The occasions have different modes. -/
theorem nodup_modes_occasions :
    ((occasions : List (Mode × (Limits α → Command → Context α → Option (Trigger α)))).map
      (·.1)).Nodup := by
  change [Mode.highRiskConfirm, .ambiguousRepair, .inputMissing, .errorRecovery,
    .largeTaskConfirm].Nodup
  decide

/-- **A confirmation in a mode** is that of the occasion with this mode, whose check has fired. -/
theorem exists_trigger_of_mode {p : Protocol α} {command : Command} {c : Context α} {mode : Mode}
    {fires : Limits α → Command → Context α → Option (Trigger α)} (ho : (mode, fires) ∈ occasions)
    (h : (p.check command c).mode = some mode) :
    ∃ t, fires p.limits command c = some t ∧ p.check command c = p.ask mode t command c := by
  rcases check_cases p command c with ⟨-, hcheck⟩ | ⟨before, o, after, t, hsplit, -, ht, hcheck⟩
  · rw [hcheck] at h
    cases h
  · have ho' : o ∈ occasions := by simp [hsplit]
    have hmode : o.1 = mode := by
      rw [hcheck] at h
      exact Option.some.inj h
    obtain rfl := List.inj_on_of_nodup_map nodup_modes_occasions ho' ho hmode
    exact ⟨t, ht, hcheck⟩

/-- A confirmation is asked for exactly when an occasion fires. -/
theorem triggered_check_iff (p : Protocol α) (command : Command) (c : Context α) :
    (p.check command c).triggered = true ↔
      ∃ o ∈ occasions, (o.2 p.limits command c).isSome = true := by
  rcases check_cases p command c with ⟨hnone, hcheck⟩ | ⟨before, o, after, t, hsplit, -, ht, hcheck⟩
  · rw [hcheck]
    refine iff_of_false Bool.false_ne_true ?_
    rintro ⟨o, ho, hfired⟩
    rw [hnone o ho] at hfired
    cases hfired
  · rw [hcheck]
    have ho : o ∈ occasions := by simp [hsplit]
    have hfired : (o.2 p.limits command c).isSome = true := by rw [ht]; rfl
    exact iff_of_true rfl ⟨o, ho, hfired⟩

/-- **A mapping without other signals** is asked about when its confidence is below the threshold
or the verb is irreversible. -/
theorem triggered_check_mapping (p : Protocol α) (command : Command) (r : Mapping α)
    (missing : List String) :
    (p.check command { r.context with missingParams := missing }).triggered = true ↔
      r.confidence < p.confidence ∨ command.verb ∈ irreversibleVerbs.map (·.1) := by
  generalize hc : ({ r.context with missingParams := missing } : Context α) = c
  have hambiguous : (Limits.checkAmbiguousVerb p.limits command c).isSome = true ↔
      r.confidence < p.confidence := by
    subst hc
    unfold Limits.checkAmbiguousVerb
    split
    · exact iff_of_true rfl ‹_›
    · exact iff_of_false Bool.false_ne_true ‹_›
  have hrisk : (Limits.checkHighRisk p.limits command c).isSome = true ↔
      command.verb ∈ irreversibleVerbs.map (·.1) := by
    unfold Limits.checkHighRisk
    rw [Option.isSome_map, isSome_irreversibleSeverity?]
  -- the signals behind the other occasions are absent
  have hinput : Limits.checkInputError p.limits command c = none := by
    subst hc
    rfl
  have hprevious : Limits.checkPreviousError p.limits command c = none := by
    subst hc
    rfl
  have hlarge : Limits.checkLargeTask p.limits command c = none := by
    have htokens : ¬ p.tokens < 0 := by simp
    have hsteps : ¬ p.steps < 0 := by simp
    have hcause : p.limits.largeCause c = none := by
      subst hc
      exact (if_neg htokens).trans (if_neg hsteps)
    unfold Limits.checkLargeTask
    rw [hcause]
    rfl
  rw [triggered_check_iff, ← hambiguous, ← hrisk]
  simp [occasions, hinput, hprevious, hlarge, or_comm]

end Protocol

end CommandDesk
