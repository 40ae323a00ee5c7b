import CommandDesk.Suggestion
import CommandDesk.Trigger

/-!
# Confirmations

A confirmation is what a person is asked before a command runs, together with
what came of it. It starts pending. A reply can confirm one of the suggestions,
cancel, or put another command in its place, and a confirmation that gets no
reply times out. Once it is no longer pending nothing changes it.
-/

namespace CommandDesk

/-- The occasions for a confirmation. -/
inductive Mode where
  | ambiguousRepair
  | errorRecovery
  | largeTaskConfirm
  | highRiskConfirm
  | inputMissing
  deriving DecidableEq, Repr

namespace Mode

instance : Worded Mode where
  all := [ambiguousRepair, errorRecovery, largeTaskConfirm, highRiskConfirm, inputMissing]
  word
    | ambiguousRepair => "ambiguous_repair"
    | errorRecovery => "error_recovery"
    | largeTaskConfirm => "large_task_confirm"
    | highRiskConfirm => "high_risk_confirm"
    | inputMissing => "input_missing"

/-- The letter of the occasion. -/
def code : Mode → Char
  | ambiguousRepair => 'A'
  | errorRecovery => 'B'
  | largeTaskConfirm => 'C'
  | highRiskConfirm => 'D'
  | inputMissing => 'E'

/-- The title of the occasion. -/
def label : Mode → String
  | ambiguousRepair => "Ambiguous command repair"
  | errorRecovery => "Error recovery"
  | largeTaskConfirm => "Large task confirmation"
  | highRiskConfirm => "High-risk operation confirmation"
  | inputMissing => "Missing input"

end Mode

/-- How far a confirmation has come. -/
inductive Status where
  | pending
  | confirmed
  | cancelled
  | modified
  | timeout
  deriving DecidableEq, Repr, Inhabited

namespace Status

instance : Worded Status where
  all := [pending, confirmed, cancelled, modified, timeout]
  word
    | pending => "pending"
    | confirmed => "confirmed"
    | cancelled => "cancelled"
    | modified => "modified"
    | timeout => "timeout"

/-- Whether the confirmation is decided. -/
def isTerminal (s : Status) : Bool := s ≠ pending

end Status

/-- What a person answers. -/
inductive Reply where
  | index (i : UInt64)
  | text (s : String)
  deriving DecidableEq

instance : Encode Reply where
  encode
    | .index i => encode i
    | .text s => encode s

instance : Decode Reply where
  decode? n := match (decode? n : Option UInt64) with
    | some i => some (.index i)
    | none => (decode? n).map .text

/-- What a reply chose. -/
inductive Choice where
  | index (i : UInt64)
  | command (s : String)
  deriving DecidableEq

instance : Encode Choice where
  encode
    | .index i => encode i
    | .command s => encode s

instance : Decode Choice where
  decode? n := match (decode? n : Option UInt64) with
    | some i => some (.index i)
    | none => (decode? n).map .command

/-- A confirmation. -/
structure Confirmation (α : Type) where
  triggered : Bool
  mode : Option Mode
  kind : TriggerKind
  severity : UInt32
  command : Option Command
  reason : String
  suggestions : List (Suggestion α)
  question : String
  status : Status
  choice : Option Choice
  final : Option String
  deriving DecidableEq

namespace Confirmation

variable {α : Type}

/-- The confirmation of a command that needs none. -/
def unneeded : Confirmation α :=
  ⟨false, none, .none, 0, none, "", [], "", .pending, none, none⟩

/-- Whether a reply is awaited. -/
def isPending (r : Confirmation α) : Bool := r.triggered && r.status == .pending

/-- The words that cancel. -/
def cancelWords : List String := ["cancel", "no", "n", "取消"]

/-- Confirm the suggestion with a number, if there is one. -/
def select (r : Confirmation α) (i : UInt64) : Confirmation α :=
  if i = 0 then r
  else match r.suggestions[i.toNat - 1]? with
    | some s => { r with status := .confirmed, choice := some (.index i), final := some s.command }
    | none => r

/-- Put another command in the place of the suggestions. -/
def modify (r : Confirmation α) (command : String) : Confirmation α :=
  { r with status := .modified, choice := some (.command command), final := some command }

/-- Apply a reply in words: a word that cancels, the number of a suggestion, or another command.
Any other text changes nothing. -/
def applyText (r : Confirmation α) (s : String) : Confirmation α :=
  let s := Text.trim s
  if cancelWords.contains (Text.lower s) then { r with status := .cancelled }
  else if !s.isEmpty && Decimal.allDigits s.toList then
    match (Decimal.nat? s.toList).filter (· < UInt64.size) with
    | some i => r.select (UInt64.ofNat i)
    | none => r
  else if s.toList.head? = some '/' then r.modify s
  else r

/-- Apply a reply. -/
def apply (r : Confirmation α) (reply : Reply) : Confirmation α :=
  if r.status.isTerminal then r
  else match reply with
    | .index i => r.select i
    | .text s => r.applyText s

/-- Let a pending confirmation time out, and say whether it did. -/
def expire (r : Confirmation α) : Confirmation α × Bool :=
  if r.isPending then ({ r with status := .timeout }, true) else (r, false)

/-- The text by which a person is asked, empty if no confirmation is needed. -/
def prompt (r : Confirmation α) : String :=
  if !r.triggered then ""
  else
    let mode := match r.mode with
      | some m => ["Mode: " ++ m.label ++ " (" ++ m.code.toString ++ ")"]
      | none => []
    let command := match r.command with
      | some c => ["Original command: `" ++ c.text ++ "`", ""]
      | none => []
    let suggestions :=
      if r.suggestions.isEmpty then []
      else "Suggestions:" :: r.suggestions.map (·.text) ++ [""]
    Text.joinLines (["Confirmation required", ""] ++ mode ++ ["Reason: " ++ r.reason, ""]
      ++ command ++ suggestions ++
      [r.question, "Reply with an option number, a new /command, or 'cancel'."])

instance [Encode α] : Encode (Confirmation α) where
  encode r := .ofFields
    [field "triggered" r.triggered, field "mode" r.mode, field "trigger_type" r.kind,
      field "severity" r.severity, field "original_command" r.command,
      field "trigger_reason" r.reason, field "suggestions" r.suggestions,
      field "prompt_message" r.question, field "status" r.status,
      field "selected_option" r.choice, field "final_command" r.final]

instance [Decode α] : Decode (Confirmation α) where
  decode? n := do
    let r ← Record.read? ["triggered", "mode", "trigger_type", "severity", "original_command",
      "trigger_reason", "suggestions", "prompt_message", "status", "selected_option",
      "final_command"] n
    some
      { triggered := ← r.required? "triggered"
        mode := ← r.optional? "mode"
        kind := ← r.required? "trigger_type"
        severity := ← r.required? "severity"
        command := ← r.optional? "original_command"
        reason := ← r.required? "trigger_reason"
        suggestions := ← r.required? "suggestions"
        question := ← r.required? "prompt_message"
        status := ← r.required? "status"
        choice := ← r.optional? "selected_option"
        final := ← r.optional? "final_command" }

end Confirmation

end CommandDesk
