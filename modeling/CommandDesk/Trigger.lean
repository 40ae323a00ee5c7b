import CommandDesk.Command.Basic
import CommandDesk.Context
import CommandDesk.Worded

/-!
# What calls for a confirmation

Six independent checks of a command and its context. Each either stays silent or
fires a trigger with a severity and the evidence for it.
-/

namespace CommandDesk

/-- The kinds of trigger. -/
inductive TriggerKind where
  | none
  | ambiguousVerb
  | inputError
  | highRisk
  | largeTask
  | previousError
  | missingRequired
  deriving DecidableEq, Repr, Inhabited

instance : Worded TriggerKind where
  all := [.none, .ambiguousVerb, .inputError, .highRisk, .largeTask, .previousError,
    .missingRequired]
  word
    | .none => "none"
    | .ambiguousVerb => "ambiguous_verb"
    | .inputError => "input_error"
    | .highRisk => "high_risk"
    | .largeTask => "large_task"
    | .previousError => "previous_error"
    | .missingRequired => "missing_required"

/-- What makes a task large. -/
inductive LargeCause where
  | tokens
  | steps
  deriving DecidableEq, Repr

instance : Worded LargeCause where
  all := [.tokens, .steps]
  word
    | .tokens => "tokens"
    | .steps => "steps"

/-- The evidence for a trigger. -/
inductive Evidence (α : Type) where
  | none
  | highRisk (verb command reason : String)
  | ambiguousVerb (verb : String) (confidence threshold : α) (candidates : List (Candidate α))
  | inputError (failure : Failure) (input : Option String)
  | previousError (failure : Failure) (recoveries : List (Recovery α))
  | largeTask (tokens : UInt64) (steps : UInt32) (workflow : List String) (cause : LargeCause)
  | missingRequired (params : List String)
  deriving DecidableEq, BEq

namespace Evidence

variable {α : Type}

/-- The kind of trigger that the evidence is for. -/
def kind : Evidence α → TriggerKind
  | none => .none
  | highRisk .. => .highRisk
  | ambiguousVerb .. => .ambiguousVerb
  | inputError .. => .inputError
  | previousError .. => .previousError
  | largeTask .. => .largeTask
  | missingRequired _ => .missingRequired

/-- The fields of the evidence, without its kind. -/
def fields [Encode α] : Evidence α → List (Option (String × Node))
  | none => []
  | highRisk verb command reason =>
    [field "verb" verb, field "command" command, field "reason" reason]
  | ambiguousVerb verb confidence threshold candidates =>
    [field "verb" verb, field "confidence" confidence, field "threshold" threshold,
      field "candidates" candidates]
  | inputError failure input => [field "error" failure, field "input" input]
  | previousError failure recoveries =>
    [field "previous_error" failure, field "recovery_options" recoveries]
  | largeTask tokens steps workflow cause =>
    [field "estimated_tokens" tokens, field "estimated_steps" steps,
      field "workflow_steps" workflow, field "triggered_by" cause]
  | missingRequired params => [field "missing_params" params]

instance [Encode α] : Encode (Evidence α) :=
  ⟨fun e => .ofFields (field "kind" e.kind :: e.fields)⟩

/-- Read evidence of a kind from its fields. -/
def ofKind? [Decode α] (k : TriggerKind) (n : Node) : Option (Evidence α) :=
  match k with
  | .none => some none
  | .highRisk => do
    let r ← Record.read? ["verb", "command", "reason"] n
    some (highRisk (← r.required? "verb") (← r.required? "command") (← r.required? "reason"))
  | .ambiguousVerb => do
    let r ← Record.read? ["verb", "confidence", "threshold", "candidates"] n
    some (ambiguousVerb (← r.required? "verb") (← r.required? "confidence")
      (← r.required? "threshold") (← r.required? "candidates"))
  | .inputError => do
    let r ← Record.read? ["error", "input"] n
    some (inputError (← r.required? "error") (← r.optional? "input"))
  | .previousError => do
    let r ← Record.read? ["previous_error", "recovery_options"] n
    some (previousError (← r.required? "previous_error") (← r.required? "recovery_options"))
  | .largeTask => do
    let r ← Record.read?
      ["estimated_tokens", "estimated_steps", "workflow_steps", "triggered_by"] n
    some (largeTask (← r.required? "estimated_tokens") (← r.required? "estimated_steps")
      (← r.required? "workflow_steps") (← r.required? "triggered_by"))
  | .missingRequired => do
    let r ← Record.read? ["missing_params"] n
    some (missingRequired (← r.required? "missing_params"))

/-- The kind stands among the fields, or is the first of a list. -/
instance [Decode α] : Decode (Evidence α) where
  decode?
    | .dict entries =>
      match Node.valuesOf entries "kind" with
      | [.text w] => do
        let k ← Worded.ofWord? w
        ofKind? k (.dict (entries.filter (·.1 ≠ "kind")))
      | _ => Option.none
    | .list (.text w :: rest) => do
      let k ← Worded.ofWord? w
      ofKind? k (.list rest)
    | _ => Option.none

end Evidence

/-- The outcome of a check. -/
structure Trigger (α : Type) where
  triggered : Bool
  kind : TriggerKind
  severity : UInt32
  evidence : Evidence α
  deriving DecidableEq, BEq

namespace Trigger

variable {α : Type}

/-- The outcome when no check fires. -/
def silent : Trigger α := ⟨false, .none, 0, .none⟩

/-- A trigger with its evidence. -/
def fired (severity : UInt32) (evidence : Evidence α) : Trigger α :=
  ⟨true, evidence.kind, severity, evidence⟩

instance [Encode α] : Encode (Trigger α) where
  encode t := .ofFields
    [field "triggered" t.triggered, field "trigger_type" t.kind, field "severity" t.severity,
      field "details" t.evidence]

instance [Decode α] : Decode (Trigger α) where
  decode? n := do
    let r ← Record.read? ["triggered", "trigger_type", "severity", "details"] n
    some
      { triggered := ← r.required? "triggered"
        kind := ← r.required? "trigger_type"
        severity := ← r.required? "severity"
        evidence := ← r.required? "details" }

end Trigger

/-- The verbs of irreversible commands, with the severity of their trigger. -/
def irreversibleVerbs : List (String × UInt32) :=
  [("deploy", 8), ("delete", 9), ("remove", 8), ("destroy", 10), ("overwrite", 7),
    ("publish", 6), ("release", 6), ("drop", 9), ("truncate", 9)]

/-- The severity of an irreversible verb. -/
def irreversibleSeverity? (verb : String) : Option UInt32 :=
  (irreversibleVerbs.find? (·.1 = verb)).map (·.2)

/-- The limits that the checks hold a command against. -/
structure Limits (α : Type) where
  confidence : α
  tokens : UInt64
  steps : UInt32
  deriving DecidableEq, BEq

namespace Limits

variable {α : Type} [Grade α]

/-- The limits that a project starts with. -/
def standard : Limits α := ⟨90.0, 50000, 5⟩

/-- The sum of two words, or the largest word where it does not fit. -/
def addSaturating (a b : UInt32) : UInt32 := UInt32.ofNat (min (a.toNat + b.toNat) (UInt32.size - 1))

/-- How severe it is that a confidence lies below a threshold: three, and one more for every
ten points between them. -/
def doubtSeverity (threshold confidence : α) : UInt32 :=
  addSaturating (Grade.whole ((threshold - confidence) / (10.0 : α))) 3

/-- What makes the task large; tokens come first. -/
def largeCause (l : Limits α) (c : Context α) : Option LargeCause :=
  if l.tokens < c.tokens then some .tokens
  else if l.steps < c.estimatedSteps then some .steps
  else none

/-- Fires when the verb is irreversible. -/
def checkHighRisk (_ : Limits α) (command : Command) (_ : Context α) : Option (Trigger α) :=
  (irreversibleSeverity? command.verb).map fun severity =>
    .fired severity
      (.highRisk command.verb command.name
        ("'" ++ command.verb ++ "' is an irreversible operation"))

/-- Fires when the verb was mapped with too little confidence. -/
def checkAmbiguousVerb (l : Limits α) (command : Command) (c : Context α) :
    Option (Trigger α) :=
  if c.confidence < l.confidence then
    some (.fired (doubtSeverity l.confidence c.confidence)
      (.ambiguousVerb command.verb c.confidence l.confidence c.candidates))
  else none

/-- Fires when something is wrong with the input. -/
def checkInputError (_ : Limits α) (command : Command) (c : Context α) : Option (Trigger α) :=
  c.inputFailure.map fun f => .fired 5 (.inputError f (command.input.map (·.text)))

/-- Fires when the previous command failed. -/
def checkPreviousError (_ : Limits α) (_ : Command) (c : Context α) : Option (Trigger α) :=
  c.previousFailure.map fun f => .fired 6 (.previousError f c.recoveries)

/-- Fires when the task is large. -/
def checkLargeTask (l : Limits α) (_ : Command) (c : Context α) : Option (Trigger α) :=
  (l.largeCause c).map fun cause =>
    .fired 4 (.largeTask c.tokens c.estimatedSteps c.workflowSteps cause)

/-- Fires when required parameters are missing. -/
def checkMissingRequired (_ : Limits α) (_ : Command) (c : Context α) : Option (Trigger α) :=
  if c.missingParams.isEmpty then none else some (.fired 5 (.missingRequired c.missingParams))

/-- All checks, in the order in which their triggers are listed. -/
def checks : List (Limits α → Command → Context α → Option (Trigger α)) :=
  [checkHighRisk, checkAmbiguousVerb, checkInputError, checkPreviousError, checkLargeTask,
    checkMissingRequired]

/-- Every trigger that fires. -/
def checkAll (l : Limits α) (command : Command) (c : Context α) : List (Trigger α) :=
  checks.filterMap fun check => check l command c

/-- The more severe of two triggers, the first if they are equally severe. -/
def moreSevere (s t : Trigger α) : Trigger α := if s.severity < t.severity then t else s

/-- The first of the most severe triggers that fire. -/
def mostSevere (l : Limits α) (command : Command) (c : Context α) : Trigger α :=
  match l.checkAll command c with
  | [] => .silent
  | t :: ts => ts.foldl moreSevere t

end Limits

end CommandDesk
