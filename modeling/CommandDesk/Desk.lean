import CommandDesk.Hack.Injection
import CommandDesk.Progress
import CommandDesk.Protocol
import CommandDesk.Snapshot
import CommandDesk.Timeline

/-!
# The desk

The desk takes a command through every stage: its verb is mapped, the
confirmation that it needs is drawn up, hacks are injected into the prompt that
goes with it, and the command is recorded in the history.
-/

namespace CommandDesk

/-- Which hacks the occasions for a confirmation bring along, and whether commands are
recorded. -/
structure Integration where
  clarifyOnAmbiguous : Bool := true
  devilsAdvocateOnHighRisk : Bool := true
  allHacksOnLargeTask : Bool := true
  recordHistory : Bool := true
  deriving DecidableEq, BEq

namespace Integration

/-- The ids of the hacks that an occasion brings along, in the order of their injection. -/
def hacksFor (o : Integration) : Mode → List String
  | .ambiguousRepair => if o.clarifyOnAmbiguous then ["clarify"] else []
  | .errorRecovery => ["clarify", "self_grade"]
  | .largeTaskConfirm =>
    if o.allHacksOnLargeTask then ["clarify", "web_backed", "self_grade", "devils_advocate"]
    else ["self_grade"]
  | .highRiskConfirm => if o.devilsAdvocateOnHighRisk then ["devils_advocate"] else []
  | .inputMissing => ["clarify"]

instance : Encode Integration where
  encode o := .ofFields
    [field "clarify_on_ambiguous" o.clarifyOnAmbiguous,
      field "devils_advocate_on_high_risk" o.devilsAdvocateOnHighRisk,
      field "all_hacks_on_large_task" o.allHacksOnLargeTask,
      field "record_history" o.recordHistory]

instance : Decode Integration where
  decode? n := do
    let r ← Record.read? ["clarify_on_ambiguous", "devils_advocate_on_high_risk",
      "all_hacks_on_large_task", "record_history"] n
    some
      { clarifyOnAmbiguous := ← r.defaulted? "clarify_on_ambiguous" true
        devilsAdvocateOnHighRisk := ← r.defaulted? "devils_advocate_on_high_risk" true
        allHacksOnLargeTask := ← r.defaulted? "all_hacks_on_large_task" true
        recordHistory := ← r.defaulted? "record_history" true }

end Integration

/-- A command after its verb was mapped, ready to be checked. -/
structure Resolution (α : Type) where
  mapping : Mapping α
  /-- The command that the verb was mapped to if that needs no confirmation, else the command
  as it was given. -/
  command : Command
  context : Context α

/-- What came of checking a command. -/
structure Outcome (α : Type) where
  response : Confirmation α
  prompt : String
  appliedHacks : List String

/-- The state of a desk in numbers. -/
structure DeskStatus (α : Type) where
  percentage : α
  indicator : String
  injected : Nat
  remaining : Nat
  undoCount : Nat
  redoCount : Nat
  enabledHacks : List String
  totalHacks : Nat

/-- Everything that a command passes through. -/
structure Desk (α : Type) where
  mapper : Mapper α
  protocol : Protocol α
  progress : Progress
  history : Timeline Snapshot
  integration : Integration
  injection : InjectOptions

namespace Desk

variable {α : Type} [Grade α]

/-- The desk that a project starts with. -/
def standard : Desk α where
  mapper := .standard
  protocol := .standard
  progress := .standard
  history := .ofLimit Timeline.standardLimit
  integration := {}
  injection := {}

/-- Map the verb of a command, and gather what is known for checking it. -/
def resolve (d : Desk α) (command : Command) : Resolution α :=
  let mapping := d.mapper.map command.verb (some command.noun)
  let command := match mapping.target with
    | some target => if mapping.requiresConfirmation then command else command.retarget target
    | none => command
  let context :=
    { mapping.context with missingParams := d.mapper.catalog.missingParams command }
  ⟨mapping, command, context⟩

/-- A prompt with the ids of the hacks that were injected into it. -/
structure Enhanced where
  prompt : String
  applied : List String

/-- Inject a hack. -/
def Enhanced.inject (e : Enhanced) (o : InjectOptions) (h : Hack) : Enhanced :=
  ⟨(Injection.inject e.prompt h o).injected, e.applied ++ [h.id]⟩

/-- The enabled hacks that the occasion for a confirmation brings along. -/
def occasionHacks (d : Desk α) (mode : Option Mode) : List Hack :=
  ((mode.map d.integration.hacksFor).getD []).filterMap fun id =>
    (d.progress.hacks.get? id).filter (·.enabled)

/-- The hack that reported progress hands out, unless it is already applied. -/
def milestoneHack? (d : Desk α) (progress : UInt32) (applied : List String) : Option Hack :=
  (d.progress.due? α (UInt64.ofNat progress.toNat)).filter fun h => !applied.contains h.id

/-- Note reported progress and the hack that was injected for it. -/
def noteProgress (d : Desk α) (progress : UInt32) (injected : Option Hack) : Progress :=
  let p := d.progress.update α (UInt64.ofNat progress.toNat)
  match injected with
  | some h => (p.markInjected h.milestone).1
  | none => p

/-- Check a command: draw up its confirmation, inject the hacks that are due into the prompt,
and record the command. -/
def enhance (d : Desk α) (stamp : Stamp) (command : Command) (prompt : String)
    (context : Context α) : Desk α × Outcome α :=
  let response := d.protocol.check command context
  let draft := (d.occasionHacks response.mode).foldl (fun e h => e.inject d.injection h)
    (Enhanced.mk prompt [])
  let reported := context.progress
  let due := if reported = 0 then none else d.milestoneHack? reported draft.applied
  let draft := match due with
    | some h => draft.inject d.injection h
    | none => draft
  let progress := if reported = 0 then d.progress else d.noteProgress reported due
  let history :=
    if d.integration.recordHistory then
      d.history.push (.ofCommand stamp command.text command.name)
    else d.history
  ({ d with progress, history }, ⟨response, draft.prompt, draft.applied⟩)

/-- The state of the desk in numbers. -/
def status (d : Desk α) : DeskStatus α where
  percentage := d.progress.percentage α
  indicator := d.progress.indicator α
  injected := d.progress.injectedCount
  remaining := d.progress.remainingCount
  undoCount := d.history.done.length
  redoCount := d.history.undone.length
  enabledHacks := d.progress.hacks.enabled.map (·.id)
  totalHacks := d.progress.hacks.hacks.length

/-! ## Documents -/

instance [Encode α] : Encode (Resolution α) where
  encode r := .ofFields
    [field "mapping" r.mapping, field "command" r.command, field "context" r.context]

instance [Encode α] : Encode (Outcome α) where
  encode o := .ofFields
    [field "response" o.response, field "prompt" o.prompt,
      field "applied_hacks" o.appliedHacks]

/-- A count. -/
def countField (name : String) (n : Nat) : Option (String × Node) := some (name, .int n)

instance [Encode α] : Encode (DeskStatus α) where
  encode s := .ofFields
    [field "progress_percentage" s.percentage, field "progress_indicator" s.indicator,
      countField "milestones_injected" s.injected, countField "milestones_remaining" s.remaining,
      countField "undo_count" s.undoCount, countField "redo_count" s.redoCount,
      field "enabled_hacks" s.enabledHacks, countField "total_hacks" s.totalHacks]

end Desk

end CommandDesk
