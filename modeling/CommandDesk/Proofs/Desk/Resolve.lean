import CommandDesk.Proofs.Config.Stages
import CommandDesk.Proofs.Grade.FloatOrder
import CommandDesk.Proofs.Mapping.Reference
import CommandDesk.Proofs.Protocol

/-!
# Mappings that need confirmation

The mapper and the protocol have a threshold each, and a configuration sets
them apart from one another. A mapping that the mapper leaves to be confirmed is
asked about exactly when the protocol finds its confidence too low as well, or
the verb irreversible (`triggered_check_resolve`).
-/

namespace CommandDesk

namespace Desk

variable {α : Type} [Grade α]

/-- What was resolved is checked against nothing but its mapping and its missing parameters. -/
theorem context_resolve (d : Desk α) (command : Command) :
    (d.resolve command).context =
      { (d.resolve command).mapping.context with
        missingParams := d.mapper.catalog.missingParams (d.resolve command).command } := by
  unfold resolve
  dsimp only

theorem mapping_resolve (d : Desk α) (command : Command) :
    (d.resolve command).mapping = d.mapper.map command.verb (some command.noun) := by
  unfold resolve
  dsimp only

/-- A command whose mapping needs confirmation is kept as it was given. -/
theorem command_resolve {d : Desk α} {command : Command}
    (h : (d.resolve command).mapping.requiresConfirmation = true) :
    (d.resolve command).command = command := by
  rw [mapping_resolve] at h
  unfold resolve
  dsimp only
  split
  · exact if_pos h
  · rfl

/-- **What resolving does to a command**: it is put in place by the target of its mapping if that
needs no confirmation, and kept as it was given otherwise. -/
theorem command_resolve_cases (d : Desk α) (command : Command) :
    (∃ target ∈ (d.resolve command).mapping.target,
        (d.resolve command).mapping.requiresConfirmation = false ∧
          (d.resolve command).command = command.retarget target) ∨
      (((d.resolve command).mapping.target = none ∨
          (d.resolve command).mapping.requiresConfirmation = true) ∧
        (d.resolve command).command = command) := by
  cases hr : (d.resolve command).mapping.requiresConfirmation with
  | true => exact .inr ⟨.inr rfl, command_resolve hr⟩
  | false =>
    rw [mapping_resolve] at hr ⊢
    unfold resolve
    dsimp only
    rw [hr]
    split
    · rename_i target htarget
      exact .inl ⟨target, htarget, rfl, rfl⟩
    · rename_i htarget
      exact .inr ⟨.inl htarget, rfl⟩

/-- What was resolved is asked about when its confidence is below the threshold of the protocol or
its verb is irreversible. -/
theorem triggered_check_resolve (d : Desk α) (command : Command) :
    (d.protocol.check (d.resolve command).command (d.resolve command).context).triggered = true ↔
      (d.resolve command).mapping.confidence < d.protocol.confidence ∨
        (d.resolve command).command.verb ∈ irreversibleVerbs.map (·.1) := by
  rw [context_resolve]
  exact d.protocol.triggered_check_mapping _ _ _

/-- **When a mapping that needs confirmation is asked about.** Its confidence is zero where the
verb was mapped to nothing. -/
theorem triggered_check_of_requiresConfirmation (c : Config) (d : Desk Float) (command : Command)
    (hd : c.desk = .ok d)
    (hr : (d.resolve command).mapping.requiresConfirmation = true) :
    ((d.protocol.check (d.resolve command).command (d.resolve command).context).triggered = true ↔
        (d.resolve command).mapping.confidence < c.protocol.confidence ∨
          command.verb ∈ irreversibleVerbs.map (·.1)) ∧
      (c.mapping.direct ≤ c.protocol.confidence → 0.0 < c.protocol.confidence →
        (d.protocol.check (d.resolve command).command (d.resolve command).context).triggered =
          true) := by
  obtain ⟨-, -, catalog, hacks, -, -, hdesk⟩ := Config.desk_eq_ok.1 hd
  have hprotocol : d.protocol = c.protocol := by rw [hdesk]
  have hrules : d.mapper.rules = c.mapping := by rw [hdesk]
  rw [triggered_check_resolve, hprotocol, command_resolve hr]
  refine ⟨Iff.rfl, fun hle hpositive => .inl ?_⟩
  rw [mapping_resolve] at hr ⊢
  rcases Mapper.lt_direct_or_unmatched hr with hbelow | hunmatched
  · rw [hrules] at hbelow
    exact Grade.float_lt_of_lt_of_le hbelow hle
  · rw [hunmatched]
    exact hpositive

/-! ## Thresholds that differ -/

/-- A configuration of one command, with a direct threshold of ninety for the mapper and another
threshold for the protocol. -/
def ofThreshold (confidence : Float) : Config :=
  { Config.standard with
    mapping := ⟨90.0, 30.0, false⟩
    protocol := ⟨confidence, 50000, 5, 5⟩
    commands := [.ofName "list-files" (Table.empty.insert "list" 80.0)] }

/-- With the same threshold for both a confidence of eighty is asked about. -/
theorem triggered_check_ninety :
    ∃ d, (ofThreshold 90.0).desk = .ok d ∧
      (d.resolve (.ofName "list-files")).mapping.requiresConfirmation = true ∧
        (d.protocol.check (d.resolve (.ofName "list-files")).command
          (d.resolve (.ofName "list-files")).context).triggered = true := by
  have hrun : (match (ofThreshold 90.0).desk with
      | .ok d => (d.resolve (.ofName "list-files")).mapping.requiresConfirmation
      | .error _ => false) = true := by decide +kernel
  split at hrun
  · rename_i d hd
    have hasked := triggered_check_of_requiresConfirmation (ofThreshold 90.0) d
      (.ofName "list-files") hd hrun
    exact ⟨d, hd, hrun, hasked.2 (by decide +kernel) (by decide +kernel)⟩
  · cases hrun

/-- With a lower threshold for the protocol the mapping needs confirmation, and none is asked
for. -/
theorem not_triggered_check_fifty :
    ∃ d, (ofThreshold 50.0).desk = .ok d ∧
      (d.resolve (.ofName "list-files")).mapping.requiresConfirmation = true ∧
        (d.protocol.check (d.resolve (.ofName "list-files")).command
          (d.resolve (.ofName "list-files")).context).triggered = false := by
  have hrun : (match (ofThreshold 50.0).desk with
      | .ok d => (d.resolve (.ofName "list-files")).mapping.requiresConfirmation &&
        !(d.protocol.check (d.resolve (.ofName "list-files")).command
          (d.resolve (.ofName "list-files")).context).triggered
      | .error _ => false) = true := by decide +kernel
  split at hrun
  · rename_i d hd
    obtain ⟨hr, hasked⟩ := Bool.and_eq_true_iff.1 hrun
    exact ⟨d, hd, hr, (Bool.not_eq_true' _).mp hasked⟩
  · cases hrun

end Desk

end CommandDesk
