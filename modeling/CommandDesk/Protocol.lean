import CommandDesk.Confirmation
import CommandDesk.Mapping

/-!
# When a confirmation is needed

The protocol goes through the occasions for a confirmation in a fixed order. The
first whose check fires decides what is asked and which options are offered.
Severity plays no part in it, so an irreversible verb always comes first.
-/

namespace CommandDesk

/-- The thresholds of the protocol and the number of suggestions it offers. -/
structure Protocol (α : Type) where
  confidence : α
  tokens : UInt64
  steps : UInt32
  maxSuggestions : UInt64
  deriving DecidableEq, BEq

namespace Protocol

variable {α : Type}

/-- The protocol that a project starts with. -/
def standard [Grade α] : Protocol α := ⟨90.0, 50000, 5, 5⟩

/-- The limits of the checks. -/
def limits (p : Protocol α) : Limits α := ⟨p.confidence, p.tokens, p.steps⟩

instance [Encode α] : Encode (Protocol α) where
  encode p := .ofFields
    [field "mapping_threshold" p.confidence, field "large_task_token_threshold" p.tokens,
      field "large_task_step_threshold" p.steps, field "max_suggestions" p.maxSuggestions]

instance [Grade α] [Decode α] : Decode (Protocol α) where
  decode? n := do
    let r ← Record.read? ["mapping_threshold", "large_task_token_threshold",
      "large_task_step_threshold", "max_suggestions"] n
    some
      { confidence := ← r.defaulted? "mapping_threshold" standard.confidence
        tokens := ← r.defaulted? "large_task_token_threshold" (50000 : UInt64)
        steps := ← r.defaulted? "large_task_step_threshold" (5 : UInt32)
        maxSuggestions := ← r.defaulted? "max_suggestions" (5 : UInt64) }

variable [Grade α]

/-- Refuse a threshold out of range, and a protocol that offers nothing. -/
def validate (p : Protocol α) : Except Error Unit :=
  if !MapRules.inRange p.confidence then
    .error (.thresholdOutOfRange "mapping_threshold" (Grade.text p.confidence))
  else if p.maxSuggestions = 0 then .error .noSuggestionsAllowed
  else .ok ()

/-- The protocol itself, if it is valid. -/
def make (p : Protocol α) : Except Error (Protocol α) := do
  p.validate
  return p

/-- The occasions with their checks, in order of precedence. -/
def occasions : List (Mode × (Limits α → Command → Context α → Option (Trigger α))) :=
  [(.highRiskConfirm, Limits.checkHighRisk), (.ambiguousRepair, Limits.checkAmbiguousVerb),
    (.inputMissing, Limits.checkInputError), (.errorRecovery, Limits.checkPreviousError),
    (.largeTaskConfirm, Limits.checkLargeTask)]

/-- What a failure says, or a default if it says nothing. -/
def failureText (f : Option Failure) (default : String) : String :=
  ((f.map fun f => Text.trim f.message).filter (!·.isEmpty)).getD default

/-- Why a confirmation is needed. -/
def reason (p : Protocol α) (mode : Mode) (command : Command) (c : Context α) : String :=
  match mode with
  | .highRiskConfirm => "High-risk operation: '" ++ command.verb ++ "' cannot be undone"
  | .ambiguousRepair =>
    "Verb '" ++ command.verb ++ "' could not be mapped to a command with confidence ("
      ++ Grade.fixed 1 c.confidence ++ " < " ++ Grade.fixed 1 p.confidence ++ ")"
  | .inputMissing => failureText c.inputFailure "Input is missing or invalid"
  | .errorRecovery =>
    "Previous command failed: " ++ failureText c.previousFailure "unknown error"
  | .largeTaskConfirm =>
    "Large task: about " ++ Decimal.natString c.stepCount ++ " steps, ~"
      ++ Decimal.natString c.tokens.toNat ++ " tokens"

/-- The options that are offered. -/
def options (p : Protocol α) (mode : Mode) (command : Command) (c : Context α) :
    List (Suggestion α) :=
  match mode with
  | .highRiskConfirm => Suggestion.forHighRisk p.maxSuggestions command
  | .ambiguousRepair => Suggestion.forAmbiguous p.maxSuggestions command c.candidates
  | .inputMissing => Suggestion.forMissingInput p.maxSuggestions command c.recentResources
  | .errorRecovery => Suggestion.forFailure p.maxSuggestions command c.recoveries
  | .largeTaskConfirm => Suggestion.forLargeTask p.maxSuggestions command c.stepCount

/-- The question about a large task, with its steps if they are listed. -/
def workflowQuestion (steps : List String) : String :=
  if steps.isEmpty then "Run the full workflow?"
  else
    let listed := steps.zipIdx.map fun (s, i) => "  " ++ Decimal.natString (i + 1) ++ ". " ++ s
    "Workflow:\n" ++ Text.joinLines listed ++ "\n\nRun the full workflow?"

/-- What is asked. -/
def question (mode : Mode) (c : Context α) : String :=
  match mode with
  | .highRiskConfirm => "This operation is irreversible. Proceed?"
  | .ambiguousRepair => "Choose the command you meant"
  | .inputMissing => "Choose an input source"
  | .errorRecovery => "Choose a recovery option"
  | .largeTaskConfirm => workflowQuestion c.workflowSteps

/-- The confirmation for an occasion whose check has fired. -/
def ask (p : Protocol α) (mode : Mode) (t : Trigger α) (command : Command) (c : Context α) :
    Confirmation α where
  triggered := true
  mode := some mode
  kind := t.kind
  severity := t.severity
  command := some command
  reason := p.reason mode command c
  suggestions := p.options mode command c
  question := question mode c
  status := .pending
  choice := none
  final := none

/-- The confirmation that a command needs: that of the first occasion whose check fires. -/
def check (p : Protocol α) (command : Command) (c : Context α) : Confirmation α :=
  (occasions.findSome? fun (mode, check) =>
    (check p.limits command c).map fun t => p.ask mode t command c).getD .unneeded

end Protocol

end CommandDesk
