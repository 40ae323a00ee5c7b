import CommandDesk.Proofs.Command.Name
import CommandDesk.Proofs.Config.Stages
import CommandDesk.Proofs.Mapping.Reference

/-!
# The names of a configuration

The catalog can be built only if every name is valid, and the vocabulary lists
the names of the configuration and no others. So whatever a desk maps a verb to
is a valid name of its configuration (`exists_entry_of_mem_eligible`).
-/

namespace CommandDesk

theorem Catalog.register_eq_ok {catalog catalog' : Catalog} {s : Spec} :
    catalog.register s = .ok catalog' ↔
      Name.isValid s.name = true ∧ ⟨putSpec s catalog.specs⟩ = catalog' := by
  unfold register
  rw [check_bind_eq_ok, pure_eq_ok, Name.validate_eq_ok]

namespace Config

variable {c : Config} {d : Desk Float}

/-- **A catalog that can be built** has valid names only. -/
theorem isValid_of_catalog_eq_ok {catalog : Catalog} (h : c.catalog = .ok catalog)
    {e : CommandEntry} (he : e ∈ c.commands) : Name.isValid e.name = true := by
  unfold Config.catalog at h
  -- entries are registered one by one, each after those before it
  generalize Catalog.empty = start at h
  generalize c.commands = entries at h he
  induction entries generalizing start with
  | nil => exact absurd he List.not_mem_nil
  | cons entry entries ih =>
    rw [List.foldlM_cons, bind_eq_ok] at h
    obtain ⟨next, hentry, hrest⟩ := h
    rcases List.mem_cons.1 he with rfl | he
    · exact (Catalog.register_eq_ok.1 hentry).1
    · exact ih next hrest he

/-! ## The vocabulary -/

/-- The vocabulary is built by registering the entries in turn. -/
theorem vocabulary_eq_ofEdits (c : Config) :
    c.vocabulary =
      .ofEdits (c.commands.map fun e => .register e.name e.synonyms.entries) := by
  unfold vocabulary Vocabulary.ofEdits
  rw [List.foldl_map]
  rfl

/-- What is written in a configuration is bounded and normalized when it is registered. -/
theorem sound_vocabulary (c : Config) : c.vocabulary.Sound := by
  rw [vocabulary_eq_ofEdits]
  exact Vocabulary.sound_ofEdits _

/-- **The vocabulary lists the names of the configuration.** -/
theorem mem_commands_vocabulary {name : String} :
    name ∈ c.vocabulary.commands ↔ ∃ e ∈ c.commands, e.name = name := by
  -- for any start: registering keeps what is listed and adds the name of the entry
  have hrun : ∀ (es : List CommandEntry) (v : Vocabulary Float),
      name ∈ (es.foldl (fun v e => v.register e.name e.synonyms.entries) v).commands ↔
        name ∈ v.commands ∨ ∃ e ∈ es, e.name = name := by
    intro es
    induction es with
    | nil => simp
    | cons e es ih =>
      intro v
      have hstep : name ∈ (v.register e.name e.synonyms.entries).commands ↔
          name ∈ v.commands ∨ e.name = name := by
        unfold Vocabulary.register
        rw [Vocabulary.commands_update]
        split
        · rename_i hlisted
          rw [Vocabulary.contains_iff] at hlisted
          exact ⟨.inl, fun h => h.elim id fun h => h ▸ hlisted⟩
        · simp [eq_comm]
      rw [List.foldl_cons, ih, hstep, or_assoc]
      simp
  unfold vocabulary
  rw [hrun]
  exact or_iff_right List.not_mem_nil

/-! ## The desk -/

theorem mapper_of_desk_eq_ok (hd : c.desk = .ok d) :
    d.mapper.vocabulary = c.vocabulary ∧ d.mapper.rules = c.mapping ∧ d.protocol = c.protocol := by
  obtain ⟨-, -, catalog, hacks, -, -, rfl⟩ := desk_eq_ok.1 hd
  exact ⟨rfl, rfl, rfl⟩

theorem isValid_of_desk_eq_ok (hd : c.desk = .ok d) {e : CommandEntry} (he : e ∈ c.commands) :
    Name.isValid e.name = true := by
  obtain ⟨-, -, catalog, hacks, hcatalog, -, -⟩ := desk_eq_ok.1 hd
  exact isValid_of_catalog_eq_ok hcatalog he

/-- **What a verb can be mapped to** is a command of the configuration. -/
theorem exists_entry_of_mem_eligible (hd : c.desk = .ok d) {verb : String} {noun : Option String}
    {o : Candidate Float} (ho : o ∈ d.mapper.eligible verb noun) :
    ∃ e ∈ c.commands, e.name = o.command := by
  obtain ⟨g, hg, -, rfl⟩ := Mapper.mem_eligible.1 ho
  rw [(mapper_of_desk_eq_ok hd).1] at hg
  exact mem_commands_vocabulary.1 (List.mem_map_of_mem hg)

/-- The candidates of a mapping have valid names. -/
theorem isValid_of_mem_candidates (hd : c.desk = .ok d) {verb : String} {noun : Option String}
    {o : Candidate Float} (ho : o ∈ (d.mapper.map verb noun).candidates) :
    Name.isValid o.command = true := by
  by_cases hverb : Text.normalize verb = ""
  · rw [Mapper.candidates_map_eq_nil hverb] at ho
    exact absurd ho List.not_mem_nil
  · rw [Mapper.candidates_map _ _ hverb] at ho
    obtain ⟨e, he, hname⟩ :=
      exists_entry_of_mem_eligible hd (Mapper.mem_ranking.1 (List.mem_of_mem_take ho))
    rw [← hname]
    exact isValid_of_desk_eq_ok hd he

end Config

end CommandDesk
