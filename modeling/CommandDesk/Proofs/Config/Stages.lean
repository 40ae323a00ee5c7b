import CommandDesk.Config.Basic

/-!
# The desk of a configuration

A configuration yields a desk when every stage can be built from it. What the
desk then consists of is said once (`desk_eq_ok`).
-/

namespace CommandDesk

/-- A computation succeeds when both of its parts do. -/
theorem bind_eq_ok {ε β γ : Type} {x : Except ε β} {f : β → Except ε γ} {c : γ} :
    x >>= f = .ok c ↔ ∃ b, x = .ok b ∧ f b = .ok c := by
  cases x <;> simp [bind, Except.bind]

/-- A check before a computation must pass. -/
theorem check_bind_eq_ok {ε γ : Type} {x : Except ε Unit} {f : Unit → Except ε γ} {c : γ} :
    x >>= f = .ok c ↔ x = .ok () ∧ f () = .ok c := by
  rw [bind_eq_ok]
  exact ⟨fun ⟨_, h⟩ => h, fun h => ⟨(), h⟩⟩

theorem pure_eq_ok {ε β : Type} {b c : β} : (pure b : Except ε β) = .ok c ↔ b = c := by
  simp [pure, Except.pure]

/-- A valid protocol is used as it is. -/
theorem Protocol.make_eq_ok {α : Type} [Grade α] {p q : Protocol α} :
    p.make = .ok q ↔ p.validate = .ok () ∧ p = q := by
  unfold make
  rw [check_bind_eq_ok, pure_eq_ok]

namespace Config

variable {c : Config}

theorem mapper_eq_ok {m : Mapper Float} :
    c.mapper = .ok m ↔
      c.mapping.validate = .ok () ∧
        ∃ catalog, c.catalog = .ok catalog ∧ ⟨c.vocabulary, catalog, c.mapping⟩ = m := by
  unfold mapper
  rw [check_bind_eq_ok]
  simp only [bind_eq_ok, pure_eq_ok]

/-- **The desk of a configuration**, and what has to be valid for it. -/
theorem desk_eq_ok {d : Desk Float} :
    c.desk = .ok d ↔
      c.mapping.validate = .ok () ∧ c.protocol.validate = .ok () ∧
        ∃ catalog hacks, c.catalog = .ok catalog ∧ c.hackSet = .ok hacks ∧
          d = {
            mapper := ⟨c.vocabulary, catalog, c.mapping⟩
            protocol := c.protocol
            progress := .ofHacks hacks
            history := .ofLimit c.maxEntries.toNat
            integration := c.integration
            injection := c.injection } := by
  unfold desk
  simp only [bind_eq_ok, pure_eq_ok, mapper_eq_ok, Protocol.make_eq_ok]
  constructor
  · rintro ⟨_, ⟨hmapping, catalog, hcatalog, rfl⟩, _, ⟨hprotocol, rfl⟩, hacks, hhacks, rfl⟩
    exact ⟨hmapping, hprotocol, catalog, hacks, hcatalog, hhacks, rfl⟩
  · rintro ⟨hmapping, hprotocol, catalog, hacks, hcatalog, hhacks, rfl⟩
    exact ⟨_, ⟨hmapping, catalog, hcatalog, rfl⟩, _, ⟨hprotocol, rfl⟩, hacks, hhacks, rfl⟩

end Config

end CommandDesk
