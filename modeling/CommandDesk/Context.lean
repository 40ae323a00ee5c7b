import CommandDesk.Grade
import CommandDesk.Node.Codec
import CommandDesk.Text.Blank

/-!
# What is known when a command is checked

A context gathers the signals around a command: how confidently its verb was
mapped and to what, failures, the size of the task. Every signal may be absent,
and an absent one never calls for a confirmation.
-/

namespace CommandDesk

variable {α : Type}

/-- A command that a verb may stand for. -/
structure Candidate (α : Type) where
  command : String
  confidence : α
  description : Option String
  deriving DecidableEq, BEq

instance [Encode α] : Encode (Candidate α) where
  encode c := .ofFields
    [field "command" c.command, field "confidence" c.confidence,
      fieldIfSome "description" c.description]

instance [Decode α] : Decode (Candidate α) where
  decode? n := do
    let r ← Record.read? ["command", "confidence", "description"] n
    some
      { command := ← r.required? "command"
        confidence := ← r.required? "confidence"
        description := ← r.defaulted? "description" none }

/-- The report of a failure. -/
structure Failure where
  message : String
  code : Option String
  deriving DecidableEq, BEq

/-- Whether the report says nothing. -/
def Failure.isEmpty (f : Failure) : Bool := (Text.trim f.message).isEmpty && f.code.isNone

instance : Encode Failure where
  encode f := .ofFields [field "message" f.message, fieldIfSome "code" f.code]

instance : Decode Failure where
  decode? n := do
    let r ← Record.read? ["message", "code"] n
    some ⟨← r.defaulted? "message" "", ← r.defaulted? "code" none⟩

/-- A command that may help after a failure. -/
structure Recovery (α : Type) where
  command : String
  description : String
  confidence : Option α
  deriving DecidableEq, BEq

instance [Encode α] : Encode (Recovery α) where
  encode o := .ofFields
    [field "command" o.command, field "description" o.description,
      fieldIfSome "confidence" o.confidence]

instance [Decode α] : Decode (Recovery α) where
  decode? n := do
    let r ← Record.read? ["command", "description", "confidence"] n
    some
      { command := ← r.required? "command"
        description := ← r.defaulted? "description" ""
        confidence := ← r.defaulted? "confidence" none }

/-- The signals around a command. -/
structure Context (α : Type) where
  mappingConfidence : Option α := none
  candidates : List (Candidate α) := []
  inputReport : Option Failure := none
  previousReport : Option Failure := none
  recoveries : List (Recovery α) := []
  tokenEstimate : Option UInt64 := none
  stepEstimate : Option UInt32 := none
  workflowSteps : List String := []
  recentResources : List String := []
  missingParams : List String := []
  reportedProgress : Option UInt32 := none
  deriving DecidableEq, BEq

namespace Context

/-- The context without signals. -/
def empty : Context α := {}

/-- How confidently the verb was mapped; fully, if nothing is said. -/
def confidence [Grade α] (c : Context α) : α := c.mappingConfidence.getD 100.0

/-- The estimated number of tokens. -/
def tokens (c : Context α) : UInt64 := c.tokenEstimate.getD 0

/-- The estimated number of steps. -/
def estimatedSteps (c : Context α) : UInt32 := c.stepEstimate.getD 0

/-- The number of steps: those listed, or the estimate if none is listed. -/
def stepCount (c : Context α) : Nat :=
  if c.workflowSteps.isEmpty then c.estimatedSteps.toNat else c.workflowSteps.length

/-- What is wrong with the input. -/
def inputFailure (c : Context α) : Option Failure := c.inputReport.filter (!·.isEmpty)

/-- How the previous command failed. -/
def previousFailure (c : Context α) : Option Failure := c.previousReport.filter (!·.isEmpty)

/-- The reported progress, zero if there is none. -/
def progress (c : Context α) : UInt32 := c.reportedProgress.getD 0

instance [Encode α] : Encode (Context α) where
  encode c := .ofFields
    [fieldIfSome "mapping_confidence" c.mappingConfidence, fieldIfAny "candidates" c.candidates,
      fieldIfSome "input_error" c.inputReport, fieldIfSome "previous_error" c.previousReport,
      fieldIfAny "recovery_options" c.recoveries, fieldIfSome "estimated_tokens" c.tokenEstimate,
      fieldIfSome "estimated_steps" c.stepEstimate, fieldIfAny "workflow_steps" c.workflowSteps,
      fieldIfAny "recent_resources" c.recentResources,
      fieldIfAny "missing_required_params" c.missingParams,
      fieldIfSome "progress" c.reportedProgress]

/-- The names of the fields; the recent resources have an older name too. -/
def fieldNames : List (List String) :=
  [["mapping_confidence"], ["candidates"], ["input_error"], ["previous_error"],
    ["recovery_options"], ["estimated_tokens"], ["estimated_steps"], ["workflow_steps"],
    ["recent_resources", "recent_files"], ["missing_required_params"], ["progress"]]

instance [Decode α] : Decode (Context α) where
  decode? n := do
    let r ← Record.ofNode? fieldNames n
    some
      { mappingConfidence := ← r.defaulted? "mapping_confidence" none
        candidates := ← r.defaulted? "candidates" []
        inputReport := ← r.defaulted? "input_error" none
        previousReport := ← r.defaulted? "previous_error" none
        recoveries := ← r.defaulted? "recovery_options" []
        tokenEstimate := ← r.defaulted? "estimated_tokens" none
        stepEstimate := ← r.defaulted? "estimated_steps" none
        workflowSteps := ← r.defaulted? "workflow_steps" []
        recentResources := ← r.defaulted? "recent_resources" []
        missingParams := ← r.defaulted? "missing_required_params" []
        reportedProgress := ← r.defaulted? "progress" none }

end Context

end CommandDesk
