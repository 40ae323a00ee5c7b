import CommandDesk.Proofs.Decimal.Digits
import CommandDesk.Proofs.Suggestion

/-!
# The way out

Most lists of options hold one that leaves things as they are: to try the same
command once more, to cancel, or to bring another input. A list is cut to the
limit after all of its options are put together, so the way out, which stands
last, would be the first to go. It stays because the lists are short enough: one
recovery less than the limit is taken, and the other lists have four options at
most (`wayOut_is_listed`).
-/

namespace CommandDesk

theorem Decimal.natString_inj {m n : Nat} (h : natString m = natString n) : m = n := by
  have hdigits : natText m = natText n := by
    rw [← toList_natString, h, toList_natString]
  have hread : nat? (natText m) = nat? (natText n) := by rw [hdigits]
  simpa using hread

/-- A command is typed with a slash in front. -/
theorem Command.exists_text_eq (c : Command) : ∃ rest, c.text = "/" ++ rest := by
  unfold text
  simp only [String.append_assoc]
  exact ⟨_, rfl⟩

namespace Suggestion

variable {α : Type} {limit : UInt64} {shown : List (Suggestion α)} {drafts : List (Draft α)}

/-- What a suggestion offers, without its number. -/
def draft (s : Suggestion α) : Draft α := ⟨s.command, s.description, s.confidence, s.risk⟩

/-- The suggestions are these options, none left out and none added, numbered from one. -/
structure Lists (shown : List (Suggestion α)) (drafts : List (Draft α)) : Prop where
  drafts_eq : shown.map draft = drafts
  numbers : ∀ k s, shown[k]? = some s → s.index.toNat = k + 1

theorem map_draft_numbered (limit : UInt64) (drafts : List (Draft α)) :
    (numbered limit drafts).map draft = drafts.take limit.toNat := by
  refine List.ext_getElem? fun k => ?_
  rw [List.getElem?_map, getElem?_numbered, Option.map_map]
  exact Option.map_id'

/-- **Options that fit are all listed.** -/
theorem lists_numbered (h : drafts.length ≤ limit.toNat) :
    Lists (numbered limit drafts) drafts := by
  refine ⟨?_, fun k s => toNat_index_of_getElem?⟩
  rw [map_draft_numbered, List.take_of_length_le h]

/-! ## Running half of a task -/

/-- One of the suggestions is to run the first steps of a command, up to a step. -/
def OffersSteps (shown : List (Suggestion α)) (command : Command) (last : Nat) : Prop :=
  ∃ s ∈ shown, s.command = command.text ++ " --steps 1-" ++ Decimal.natString last

theorem Lists.offersSteps_iff (h : Lists shown drafts) {command : Command} {last : Nat} :
    OffersSteps shown command last ↔
      ∃ d ∈ drafts, d.command = command.text ++ " --steps 1-" ++ Decimal.natString last := by
  rw [← h.drafts_eq]
  simp [OffersSteps, draft]

/-- Running the first steps is another option than running all of them. -/
theorem text_ne_steps (command : Command) (last : Nat) :
    command.text ≠ command.text ++ " --steps 1-" ++ Decimal.natString last := by
  intro h
  have hlength := congrArg String.length h
  have hsteps : (" --steps 1-" : String).length = 11 := rfl
  simp only [String.length_append] at hlength
  omega

/-- A word without a slash runs no command. -/
theorem ne_steps_of_head {word : String} (hword : word.toList.head? ≠ some '/')
    (command : Command) (last : Nat) :
    word ≠ command.text ++ " --steps 1-" ++ Decimal.natString last := by
  rintro rfl
  obtain ⟨rest, htext⟩ := command.exists_text_eq
  rw [htext] at hword
  simp at hword

/-! ## The lists -/

variable [Grade α]

/-- One recovery less than the limit leaves room for a second try. -/
theorem lists_forFailure (h : 1 ≤ limit.toNat) (command : Command)
    (recoveries : List (Recovery α)) :
    Lists (forFailure limit command recoveries)
      ((recoveries.take (limit.toNat - 1)).map recoveryDraft ++
        [⟨command.text, "Retry the original command", 30.0, .low⟩]) := by
  refine lists_numbered ?_
  simp only [List.length_append, List.length_map, List.length_take, List.length_singleton]
  omega

theorem lists_forHighRisk (h : 3 ≤ limit.toNat) (command : Command) :
    Lists (forHighRisk limit command : List (Suggestion α))
      [⟨command.text, "Execute anyway (cannot be undone)", 100.0, .high⟩,
        ⟨"cancel", "Cancel the operation", 100.0, .low⟩,
        ⟨backupCommand command, "Back up first, then execute", 90.0, .medium⟩] :=
  lists_numbered h

/-- Three resources at most leave room for an upload. -/
theorem lists_forMissingInput (h : 4 ≤ limit.toNat) (command : Command) (recent : List String) :
    Lists (forMissingInput limit command recent : List (Suggestion α))
      (((recent.take maxResources).zipIdx.map fun (r, i) => resourceDraft command r i) ++
        [⟨"upload", "Upload a new file", 60.0, .low⟩]) := by
  refine lists_numbered ?_
  simp only [List.length_append, List.length_map, List.length_zipIdx, List.length_take,
    List.length_singleton, maxResources]
  omega

/-- A resource is offered by the command with the resource as its input. -/
theorem map_command_resourceDraft (command : Command) (resources : List String) :
    ((resources.zipIdx.map fun (r, i) => (resourceDraft command r i : Draft α)).map (·.command)) =
      resources.map fun r =>
        (command.withInput ((InputRef.parse? r).getD ⟨"file", r⟩)).text := by
  have hfst : resources.zipIdx.map Prod.fst = resources := List.zipIdx_map_fst 0 resources
  conv_rhs => rw [← hfst, List.map_map]
  rw [List.map_map]
  rfl

theorem lists_forLargeTask (h : 4 ≤ limit.toNat) (command : Command) (steps : Nat) :
    ∃ run trim : Draft α, run.command = command.text ∧ trim.command = "trim" ∧
      Lists (forLargeTask limit command steps)
        ([run, trim] ++ (if splitAbove < steps then [halfDraft command (steps / 2)] else []) ++
          [⟨"cancel", "Cancel the task", 100.0, .low⟩]) := by
  refine ⟨⟨_, _, _, _⟩, ⟨_, _, _, _⟩, rfl, rfl, lists_numbered ?_⟩
  split
  · exact h
  · exact Nat.le_of_succ_le h

/-- **Half of a large task** is offered, rounded down, and no other part of it. -/
theorem offersSteps_forLargeTask_iff (h : 4 ≤ limit.toNat) {command : Command} {steps last : Nat} :
    OffersSteps (forLargeTask limit command steps : List (Suggestion α)) command last ↔
      splitAbove < steps ∧ last = steps / 2 := by
  obtain ⟨run, trim, hrun, htrim, hlists⟩ := lists_forLargeTask (α := α) h command steps
  have hhalf : (halfDraft command (steps / 2) : Draft α).command =
      command.text ++ " --steps 1-" ++ Decimal.natString last ↔ last = steps / 2 := by
    constructor
    · intro heq
      exact (Decimal.natString_inj (String.append_right_inj _ |>.1 heq)).symm
    · rintro rfl
      rfl
  have hrun' : ¬ run.command = command.text ++ " --steps 1-" ++ Decimal.natString last := by
    rw [hrun]
    exact text_ne_steps command last
  have htrim' : ¬ trim.command = command.text ++ " --steps 1-" ++ Decimal.natString last := by
    rw [htrim]
    exact ne_steps_of_head (by decide) command last
  have hcancel : ¬ ("cancel" : String) =
      command.text ++ " --steps 1-" ++ Decimal.natString last :=
    ne_steps_of_head (by decide) command last
  rw [hlists.offersSteps_iff]
  split
  · rename_i hsplit
    simp [hsplit, hrun', htrim', hcancel, hhalf]
  · rename_i hsplit
    simp [hsplit, hrun', htrim', hcancel]

/-- **The way out is always listed.** With room for one option, what is offered after a failure are
the proposed recoveries in order, as many as leave one place, and then the command once more. With
room for four, an irreversible command can be executed, cancelled or preceded by a backup; where the
input is missing, an upload follows the first three resources; and a large task can be cancelled
last. That offers to run the first steps exactly when there are more than five, up to a step that is
the third at least and no further than half of the task. -/
theorem wayOut_is_listed (limit : UInt64) (command : Command) (hlimit : 1 ≤ limit.toNat) :
    (∀ recoveries : List (Recovery α),
      Lists (forFailure limit command recoveries)
        ((recoveries.take (limit.toNat - 1)).map
            (fun o => ⟨o.command, o.description, o.confidence.getD 50.0, .low⟩) ++
          [⟨command.text, "Retry the original command", 30.0, .low⟩])) ∧
      (4 ≤ limit.toNat →
        Lists (forHighRisk limit command : List (Suggestion α))
            [⟨command.text, "Execute anyway (cannot be undone)", 100.0, .high⟩,
              ⟨"cancel", "Cancel the operation", 100.0, .low⟩,
              ⟨backupCommand command, "Back up first, then execute", 90.0, .medium⟩] ∧
          (∀ recent : List String, ∃ resources : List (Draft α),
            resources.map (·.command) = (recent.take 3).map (fun r =>
                (command.withInput ((InputRef.parse? r).getD ⟨"file", r⟩)).text) ∧
              Lists (forMissingInput limit command recent)
                (resources ++ [⟨"upload", "Upload a new file", 60.0, .low⟩])) ∧
          ∀ steps : Nat,
            let shown : List (Suggestion α) := forLargeTask limit command steps
            (∃ front, Lists shown (front ++ [⟨"cancel", "Cancel the task", 100.0, .low⟩])) ∧
              ((∃ last, OffersSteps shown command last) ↔ 5 < steps) ∧
              ∀ last, OffersSteps shown command last → 3 ≤ last ∧ 2 * last ≤ steps) := by
  refine ⟨lists_forFailure hlimit command, fun hfour => ⟨lists_forHighRisk (by omega) command,
    fun recent => ⟨_, ?_, lists_forMissingInput hfour command recent⟩, fun steps => ⟨?_, ?_, ?_⟩⟩⟩
  · exact map_command_resourceDraft command _
  · obtain ⟨run, trim, -, -, hlists⟩ := lists_forLargeTask (α := α) hfour command steps
    exact ⟨_, hlists⟩
  · simp only [offersSteps_forLargeTask_iff hfour]
    exact ⟨fun ⟨_, hsteps, _⟩ => hsteps, fun hsteps => ⟨steps / 2, hsteps, rfl⟩⟩
  · intro last hlast
    obtain ⟨hsteps, rfl⟩ := (offersSteps_forLargeTask_iff hfour).1 hlast
    unfold splitAbove at hsteps
    omega

/-- With room for four, a task of eight steps offers to run a part of them and still to cancel. -/
theorem wayOut_is_listed_four :
    let command := Command.ofName "generate-site"
    let shown : List (Suggestion Rat) := forLargeTask 4 command 8
    1 ≤ (4 : UInt64).toNat ∧ (∃ last, OffersSteps shown command last) ∧
      ∃ front, Lists shown (front ++ [⟨"cancel", "Cancel the task", 100.0, .low⟩]) ∧
        front.length = 3 := by
  intro command shown
  have hone : 1 ≤ (4 : UInt64).toNat := by decide
  obtain ⟨-, hfour⟩ := wayOut_is_listed (α := Rat) 4 command hone
  obtain ⟨-, -, hlarge⟩ := hfour (by decide)
  obtain ⟨⟨front, hcancel⟩, hsteps, -⟩ := hlarge 8
  refine ⟨hone, hsteps.2 (by decide), front, hcancel, ?_⟩
  have hlength := congrArg List.length hcancel.drafts_eq
  have hshown : shown.length = 4 := rfl
  rw [List.length_map, hshown, List.length_append, List.length_singleton] at hlength
  omega

end Suggestion

end CommandDesk
