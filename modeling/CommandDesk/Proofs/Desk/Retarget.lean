import CommandDesk.Proofs.Config.Names
import CommandDesk.Proofs.Desk.Resolve

/-!
# Which command takes the place of another

Resolving looks at the verb and the noun of a command, not at its name. A command
that is given by its full name therefore stays itself unless another one prevails:
comes first for the verb and the noun and reaches the direct threshold
(`name_resolve_eq_iff`). A synonym that weighs more for another command with the
same noun is enough for that.
-/

namespace CommandDesk

namespace Mapper

variable {α : Type} [Grade α]

/-- The candidate comes first for the verb and the noun, and reaches the direct threshold. -/
def Prevails (m : Mapper α) (verb : String) (noun : Option String) (t : Candidate α) : Prop :=
  Grade.FirstBest (·.confidence) (m.eligible verb noun) t ∧ ¬ t.confidence < m.rules.direct

variable {m : Mapper α} {verb : String} {noun : Option String}

theorem Prevails.mem_eligible {t : Candidate α} (h : m.Prevails verb noun t) :
    t ∈ m.eligible verb noun := by
  obtain ⟨⟨front, back, hlist, -, -⟩, -⟩ := h
  simp [hlist]

variable [LawfulGrade α]

/-- The mapping to a candidate that prevails needs no confirmation. -/
theorem Prevails.map {t : Candidate α} (h : m.Prevails (Text.normalize verb) noun t)
    (hverb : Text.normalize verb ≠ "") :
    (m.map verb noun).target = some t.command ∧
      (m.map verb noun).requiresConfirmation = false := by
  obtain ⟨hfirst, hdirect⟩ := h
  have hhead := hfirst.head?_ranked
  rw [← ranking_eq_ranked] at hhead
  obtain ⟨others, hranking⟩ := List.head?_eq_some_iff.1 hhead
  rw [map_of_ranking_eq_cons hverb hranking]
  exact ⟨rfl, decide_eq_false hdirect⟩

/-- **A mapping that needs no confirmation** has a target, and it prevails. -/
theorem exists_prevails_of_direct
    (h : (m.map verb noun).requiresConfirmation = false) :
    ∃ t, (m.map verb noun).target = some t.command ∧
      m.Prevails (Text.normalize verb) noun t := by
  rcases m.map_cases verb noun with hnone | ⟨hverb, best, others, hranking⟩
  · rw [hnone] at h
    cases h
  · rw [map_of_ranking_eq_cons hverb hranking] at h ⊢
    have hhead : (Grade.ranked (·.confidence)
        (m.eligible (Text.normalize verb) noun)).head? = some best := by
      rw [← ranking_eq_ranked, hranking]
      rfl
    exact ⟨best, rfl, Grade.firstBest_of_head?_ranked hhead, of_decide_eq_false h⟩

end Mapper

namespace Desk

variable {c : Config} {d : Desk Float}

/-- A command by name, with any input and parameters. -/
def named (name : String) (input : Option InputRef) (params : Table Param) : Command :=
  { Command.ofName name with input, params }

variable {name : String}

/-- A command with a valid name has that name, and its verb and its noun are those of the name. -/
theorem parts_named (input : Option InputRef) (params : Table Param)
    (h : Name.isValid name = true) :
    (named name input params).name = name ∧ (named name input params).verb = Name.verb name ∧
      (named name input params).noun = Name.noun name := by
  unfold named Command.ofName
  dsimp only
  rw [Name.normalize_of_isValid h]
  exact ⟨rfl, rfl, rfl⟩

theorem mapping_resolve_named (d : Desk Float) (input : Option InputRef) (params : Table Param)
    (h : Name.isValid name = true) :
    (d.resolve (named name input params)).mapping =
      d.mapper.map (Name.verb name) (some (Name.noun name)) := by
  obtain ⟨-, hverb, hnoun⟩ := parts_named input params h
  rw [mapping_resolve, hverb, hnoun]

/-- A command that prevails takes the place. -/
theorem resolve_named_of_prevails (input : Option InputRef) (params : Table Param)
    (h : Name.isValid name = true) {t : Candidate Float}
    (ht : d.mapper.Prevails (Name.verb name) (some (Name.noun name)) t) :
    (d.resolve (named name input params)).command =
      (named name input params).retarget t.command := by
  rw [← Name.normalize_verb h] at ht
  have hverb : Text.normalize (Name.verb name) ≠ "" := by
    rw [Name.normalize_verb h]
    exact Name.verb_ne_empty h
  obtain ⟨htarget, hdirect⟩ := ht.map hverb
  rw [← mapping_resolve_named d input params h] at htarget hdirect
  rcases command_resolve_cases d (named name input params) with
    ⟨target, hsome, -, hcommand⟩ | ⟨hkept, -⟩
  · rw [htarget] at hsome
    rw [hcommand, Option.some.inj hsome]
  · -- a command is kept for want of a target or of confidence, and here there are both
    rw [htarget, hdirect] at hkept
    rcases hkept with hkept | hkept <;> cases hkept

/-- Where none prevails a command is kept as it was given. -/
theorem resolve_named_of_not_prevails (input : Option InputRef) (params : Table Param)
    (h : Name.isValid name = true)
    (hnone : ∀ t, ¬ d.mapper.Prevails (Name.verb name) (some (Name.noun name)) t) :
    (d.resolve (named name input params)).command = named name input params := by
  rcases command_resolve_cases d (named name input params) with
    ⟨target, -, hdirect, -⟩ | ⟨-, hcommand⟩
  · rw [mapping_resolve_named d input params h] at hdirect
    obtain ⟨t, -, ht⟩ := Mapper.exists_prevails_of_direct hdirect
    rw [Name.normalize_verb h] at ht
    exact absurd ht (hnone t)
  · exact hcommand

/-- **A command that is given by its full name stays itself exactly when no other one prevails.**
One that prevails is a command of the configuration and takes the place, with the same input and
parameters; where none does the command is kept. -/
theorem name_resolve_eq_iff (c : Config) (d : Desk Float) (e : CommandEntry)
    (input : Option InputRef) (params : Table Param) (hd : c.desk = .ok d)
    (he : e ∈ c.commands) :
    let command := named e.name input params
    let r := (d.resolve command).command
    let prevails := d.mapper.Prevails (Name.verb e.name) (some (Name.noun e.name))
    (r.name = e.name ↔ ∀ t, prevails t → t.command = e.name) ∧
      (∀ t, prevails t → (∃ o ∈ c.commands, o.name = t.command) ∧ r = command.retarget t.command) ∧
      ((∀ t, ¬ prevails t) → r = command) := by
  intro command r prevails
  have hvalid : Name.isValid e.name = true := Config.isValid_of_desk_eq_ok hd he
  have htaken : ∀ t, prevails t →
      (∃ o ∈ c.commands, o.name = t.command) ∧ r = command.retarget t.command := fun t ht =>
    ⟨Config.exists_entry_of_mem_eligible hd ht.mem_eligible,
      resolve_named_of_prevails input params hvalid ht⟩
  have hkept : (∀ t, ¬ prevails t) → r = command :=
    resolve_named_of_not_prevails input params hvalid
  refine ⟨⟨fun hname t ht => ?_, fun h => ?_⟩, htaken, hkept⟩
  · -- the name that is left is the one of the command that took the place
    obtain ⟨⟨o, ho, hcommand⟩, hr⟩ := htaken t ht
    have htarget : r.name = t.command := by
      rw [hr, ← hcommand]
      exact Command.name_retarget _ (Config.isValid_of_desk_eq_ok hd ho)
    rw [← htarget, hname]
  · by_cases hany : ∃ t, prevails t
    · obtain ⟨t, ht⟩ := hany
      rw [(htaken t ht).2, h t ht]
      exact Command.name_retarget _ hvalid
    · rw [hkept (not_exists.1 hany)]
      exact (parts_named input params hvalid).1

/-! ## A rival -/

/-- A configuration in which the verb of one command is a weightier synonym of another one with the
same noun. -/
def ofRivals : Config :=
  { Config.standard with
    commands :=
      [.ofName "list-files" ((Table.empty.insert "list" 100.0).insert "show" 95.0),
        .ofName "show-files" (Table.empty.insert "show" 90.0)] }

/-- The run behind the two results below. -/
theorem resolve_ofRivals :
    ∃ d, ofRivals.desk = .ok d ∧
      (d.resolve (named "show-files" none .empty)).command.name = "list-files" := by
  have hrun : (match ofRivals.desk with
      | .ok d => decide ((d.resolve (named "show-files" none .empty)).command.name = "list-files")
      | .error _ => false) = true := by decide +kernel
  split at hrun
  · rename_i d hd
    exact ⟨d, hd, of_decide_eq_true hrun⟩
  · cases hrun

/-- The rival takes the place of a command that was given by its full name. -/
theorem name_resolve_show_files :
    ∃ d, ofRivals.desk = .ok d ∧
      ∃ e ∈ ofRivals.commands, e.name = "show-files" ∧
        (d.resolve (named e.name none .empty)).command.name = "list-files" := by
  obtain ⟨d, hd, hname⟩ := resolve_ofRivals
  exact ⟨d, hd, _, List.mem_cons_of_mem _ List.mem_cons_self, rfl, hname⟩

/-- It prevails for the verb and the noun of that name. -/
theorem exists_prevails_show_files :
    ∃ d, ofRivals.desk = .ok d ∧
      ∃ t, d.mapper.Prevails (Name.verb "show-files") (some (Name.noun "show-files")) t ∧
        t.command ≠ "show-files" ∧
          (d.resolve (named "show-files" none .empty)).command =
            (named "show-files" none .empty).retarget t.command := by
  obtain ⟨d, hd, hname⟩ := resolve_ofRivals
  obtain ⟨hkept, htaken, -⟩ := name_resolve_eq_iff ofRivals d
    (.ofName "show-files" (Table.empty.insert "show" 90.0)) none .empty hd
    (List.mem_cons_of_mem _ List.mem_cons_self)
  have hlost : (d.resolve (named "show-files" none .empty)).command.name ≠ "show-files" := by
    rw [hname]
    decide
  obtain ⟨t, ht⟩ := not_forall.1 (mt hkept.2 hlost)
  obtain ⟨hprevails, hother⟩ := Classical.not_imp.1 ht
  exact ⟨d, hd, t, hprevails, hother, (htaken t hprevails).2⟩

end Desk

end CommandDesk
