import CommandDesk.Proofs.Config.Names
import CommandDesk.Proofs.Desk.Resolve
import CommandDesk.Proofs.Suggestion

/-!
# Repairing an ambiguous command

The mapper ranks the candidates, and the suggestions rank them once more. Both
rank by descending confidence and keep the order of equals, so the second time
changes nothing: what a person is offered are the candidates of the mapping, each
in place of the command as it was given (`suggestions_check_resolve`).
-/

namespace CommandDesk

/-- Only the input and the parameters of a command are left when another takes its place. -/
theorem Command.retarget_retarget (c : Command) (a b : String) :
    (c.retarget a).retarget b = c.retarget b := by
  unfold retarget
  rfl

theorem Mapping.candidates_context {α : Type} (m : Mapping α) (missing : List String) :
    ({ m.context with missingParams := missing } : Context α).candidates = m.candidates := rfl

/-- The candidates of a mapping are in order. -/
theorem Mapper.pairwise_candidates_map {α : Type} [Grade α] [LawfulGrade α] (m : Mapper α)
    (verb : String) (noun : Option String) :
    (m.map verb noun).candidates.Pairwise fun a b => Grade.rankLe b.confidence a.confidence := by
  by_cases hverb : Text.normalize verb = ""
  · rw [candidates_map_eq_nil hverb]
    exact .nil
  · rw [candidates_map m noun hverb, ranking_eq_ranked]
    exact (Grade.pairwise_ranked _ _).sublist (List.take_sublist _ _)

/-- The target of a verb that was mapped is its first candidate. -/
theorem Mapper.candidates_of_matched {α : Type} [Grade α] {m : Mapper α} {verb : String}
    {noun : Option String} (h : (m.map verb noun).matched = true) :
    ∃ target ∈ (m.map verb noun).target, ∃ description others,
      (m.map verb noun).candidates =
        ⟨target, (m.map verb noun).confidence, description⟩ :: others := by
  rcases m.map_cases verb noun with hnone | ⟨hverb, best, others, hranking⟩
  · rw [hnone] at h
    cases h
  · rw [map_of_ranking_eq_cons hverb hranking]
    exact ⟨best.command, rfl, best.description, _, rfl⟩

/-- A verb that was mapped to nothing has no candidates. -/
theorem Mapper.candidates_of_not_matched {α : Type} [Grade α] {m : Mapper α} {verb : String}
    {noun : Option String} (h : (m.map verb noun).matched = false) :
    (m.map verb noun).candidates = [] := by
  rcases m.map_cases verb noun with hnone | ⟨hverb, best, others, hranking⟩
  · rw [hnone]
    rfl
  · rw [map_of_ranking_eq_cons hverb hranking] at h
    cases h

/-- A valid protocol offers something. -/
theorem Protocol.maxSuggestions_pos {α : Type} [Grade α] {p : Protocol α}
    (h : p.validate = .ok ()) : 0 < p.maxSuggestions.toNat := by
  unfold validate at h
  split at h
  · cases h
  · split at h
    · cases h
    · rename_i hne
      have hnat : p.maxSuggestions.toNat ≠ 0 := fun hzero => hne (UInt64.toNat_inj.1 hzero)
      omega

/-- The confirmation of an occasion offers the options for it. -/
theorem Protocol.suggestions_check_of_mode {α : Type} [Grade α] {p : Protocol α} {mode : Mode}
    {command : Command} {c : Context α} (h : (p.check command c).mode = some mode) :
    (p.check command c).suggestions = p.options mode command c := by
  rcases check_cases p command c with ⟨-, hcheck⟩ | ⟨-, o, -, t, -, -, -, hcheck⟩
  · rw [hcheck] at h
    cases h
  · rw [hcheck] at h ⊢
    obtain rfl : o.1 = mode := Option.some.inj h
    rfl

namespace Suggestion

variable {α : Type}

/-- What is offered for candidates with valid names: each in place of the command. -/
theorem draft_of_isValid (command : Command) {o : Candidate α}
    (h : Name.isValid o.command = true) :
    (candidateDraft command o).command = (command.retarget o.command).text ∧
      (candidateDraft command o).confidence = o.confidence := by
  have hname : String.ofList (o.command.toList.dropWhile (· = '/')) = o.command := by
    rw [Name.dropWhile_slash h, String.ofList_toList]
  unfold candidateDraft
  rw [hname]
  exact ⟨rfl, rfl⟩

/-- **Candidates in order are offered as they are**, up to the limit. -/
theorem map_forAmbiguous [Grade α] [LawfulGrade α] (limit : UInt64) (command : Command)
    {candidates : List (Candidate α)}
    (hsorted : candidates.Pairwise fun a b => Grade.rankLe b.confidence a.confidence)
    (hvalid : ∀ o ∈ candidates, Name.isValid o.command = true) :
    (forAmbiguous limit command candidates).map (fun s => (s.command, s.confidence)) =
      (candidates.take limit.toNat).map fun o =>
        ((command.retarget o.command).text, o.confidence) := by
  unfold forAmbiguous
  rw [Grade.ranked_of_pairwise hsorted]
  -- numbering looks at positions, so both sides are compared position by position
  refine List.ext_getElem? fun k => ?_
  rw [List.getElem?_map, getElem?_numbered, ← List.map_take, List.getElem?_map, List.getElem?_map]
  cases ho : (candidates.take limit.toNat)[k]? with
  | none => rfl
  | some o =>
    obtain ⟨hcommand, hconfidence⟩ :=
      draft_of_isValid command (hvalid o (List.mem_of_mem_take (List.mem_of_getElem? ho)))
    simp [Draft.number, hcommand, hconfidence]

end Suggestion

namespace Desk

variable {c : Config} {d : Desk Float} {command : Command}

/-- A resolved command is checked with the candidates of its mapping. -/
theorem candidates_context_resolve (d : Desk Float) (command : Command) :
    (d.resolve command).context.candidates = (d.resolve command).mapping.candidates := by
  rw [context_resolve]
  exact Mapping.candidates_context _ _

/-- Resolving keeps the input and the parameters, so another command in place of the resolved one
is the same as in place of the one that was given. -/
theorem retarget_command_resolve (d : Desk Float) (command : Command) (name : String) :
    (d.resolve command).command.retarget name = command.retarget name := by
  rcases command_resolve_cases d command with ⟨target, -, -, hcommand⟩ | ⟨-, hcommand⟩
  · rw [hcommand, Command.retarget_retarget]
  · rw [hcommand]

/-- The first of the two conditions below, for all candidates at once. -/
theorem map_suggestions_check_resolve (hd : c.desk = .ok d)
    (hmode : (d.protocol.check (d.resolve command).command (d.resolve command).context).mode =
      some .ambiguousRepair) :
    (d.protocol.check (d.resolve command).command (d.resolve command).context).suggestions.map
        (fun s => (s.command, s.confidence)) =
      ((d.resolve command).mapping.candidates.take c.protocol.maxSuggestions.toNat).map fun o =>
        ((command.retarget o.command).text, o.confidence) := by
  have hprotocol : d.protocol = c.protocol := (Config.mapper_of_desk_eq_ok hd).2.2
  rw [Protocol.suggestions_check_of_mode hmode]
  unfold Protocol.options
  dsimp only
  rw [candidates_context_resolve, hprotocol, Suggestion.map_forAmbiguous]
  · simp only [retarget_command_resolve]
  · rw [mapping_resolve]
    exact Mapper.pairwise_candidates_map d.mapper _ _
  · rw [mapping_resolve]
    exact fun o ho => Config.isValid_of_mem_candidates hd ho

/-- **The options for an ambiguous command are the candidates of its mapping**, the best first, as
many as the limit allows: each has its confidence and stands in place of the command that was
given. Where the verb was mapped to nothing there are none. -/
theorem suggestions_check_resolve (c : Config) (d : Desk Float) (command : Command)
    (hd : c.desk = .ok d)
    (hmode : (d.protocol.check (d.resolve command).command (d.resolve command).context).mode =
      some .ambiguousRepair) :
    let r := d.resolve command
    let response := d.protocol.check r.command r.context
    response.suggestions.map (fun s => (s.command, s.confidence)) =
        (r.mapping.candidates.take c.protocol.maxSuggestions.toNat).map (fun o =>
          ((command.retarget o.command).text, o.confidence)) ∧
      (r.mapping.matched = true → ∃ target ∈ r.mapping.target, ∃ s ∈ response.suggestions.head?,
        s.command = (command.retarget target).text ∧ s.confidence = r.mapping.confidence) ∧
      (r.mapping.matched = false → response.suggestions = []) := by
  intro r response
  have hoffered := map_suggestions_check_resolve hd hmode
  have hmapping : r.mapping = d.mapper.map command.verb (some command.noun) :=
    mapping_resolve d command
  refine ⟨hoffered, fun hmatched => ?_, fun hmatched => ?_⟩
  · -- the first candidate is the target, and the limit leaves room for it
    rw [hmapping] at hmatched
    obtain ⟨target, htarget, description, others, hcons⟩ := Mapper.candidates_of_matched hmatched
    obtain ⟨limit, hlimit⟩ := Nat.exists_eq_succ_of_ne_zero
      (Nat.pos_iff_ne_zero.1 (Protocol.maxSuggestions_pos (Config.desk_eq_ok.1 hd).2.1))
    rw [← hmapping] at htarget hcons
    rw [hcons, hlimit, List.take_succ_cons, List.map_cons] at hoffered
    obtain ⟨s, suggestions, hsuggestions, hs, -⟩ := List.map_eq_cons_iff.1 hoffered
    obtain ⟨hcommand, hconfidence⟩ := Prod.mk.inj hs
    dsimp only at hcommand hconfidence
    have hhead : s ∈ response.suggestions.head? := by
      rw [hsuggestions]
      exact rfl
    exact ⟨target, htarget, s, hhead, hcommand, hconfidence⟩
  · rw [hmapping] at hmatched
    have hnil := Mapper.candidates_of_not_matched hmatched
    rw [← hmapping] at hnil
    rw [hnil, List.take_nil, List.map_nil, List.map_eq_nil_iff] at hoffered
    exact hoffered

/-- A configuration in which three commands share a synonym, two of them with the same weight, and
two suggestions are offered. -/
def ofSharedSynonym : Config :=
  { Config.standard with
    protocol := ⟨90.0, 50000, 5, 2⟩
    commands :=
      [.ofName "list-files" (Table.empty.insert "show" 80.0),
        .ofName "open-page" (Table.empty.insert "show" 80.0),
        .ofName "print-file" (Table.empty.insert "show" 85.0)] }

/-- Of the three the best comes first, and of the two equals only the one that is listed first is
left. -/
theorem suggestions_check_show :
    ∃ d, ofSharedSynonym.desk = .ok d ∧
      let r := d.resolve (.ofName "show")
      let response := d.protocol.check r.command r.context
      response.mode = some .ambiguousRepair ∧ r.mapping.matched = true ∧
        response.suggestions.map (fun s => (s.command, s.confidence)) =
          (r.mapping.candidates.take 2).map (fun o =>
            (((Command.ofName "show").retarget o.command).text, o.confidence)) ∧
        ∃ target ∈ r.mapping.target, ∃ s ∈ response.suggestions.head?,
          s.command = ((Command.ofName "show").retarget target).text ∧
            s.confidence = r.mapping.confidence := by
  have hrun : (match ofSharedSynonym.desk with
      | .ok d =>
        decide ((d.protocol.check (d.resolve (.ofName "show")).command
          (d.resolve (.ofName "show")).context).mode = some .ambiguousRepair) &&
            (d.resolve (.ofName "show")).mapping.matched
      | .error _ => false) = true := by decide +kernel
  split at hrun
  · rename_i d hd
    obtain ⟨hmode, hmatched⟩ := Bool.and_eq_true_iff.1 hrun
    have hasked := suggestions_check_resolve ofSharedSynonym d (.ofName "show") hd
      (of_decide_eq_true hmode)
    exact ⟨d, hd, of_decide_eq_true hmode, hmatched, hasked.1, hasked.2.1 hmatched⟩
  · cases hrun

end Desk

end CommandDesk
