import CommandDesk.Cli.Call
import CommandDesk.Cli.Refusal
import CommandDesk.Desk

/-!
# Signals on the command line

The command and the context that the options of a call stand for.
-/

namespace CommandDesk

namespace Cli

/-- The value that a text stands for: a switch, a whole number, a number, or itself. -/
def paramOf (s : String) : Param :=
  if s = "true" then .flag true
  else if s = "false" then .flag false
  else match Decimal.int? Int64.minValue.toInt Int64.maxValue.toInt s.toList with
    | some i => .int (Int64.ofInt i)
    | none => match Decimal.float? s.toList with
      | some x => .num x
      | none => .str s

/-- The key and the value of a parameter. A key alone is a switch that is on. -/
def keyValue (typed : String) : Except Refusal (String × Param) :=
  let (key, value) := match Text.splitOnce? '=' typed with
    | some (k, v) => (Text.trim k, paramOf (Text.trim v))
    | none => (Text.trim typed, .flag true)
  if key.isEmpty then .error (.badParam typed) else .ok (Text.replaceChar '-' '_' key, value)

namespace Signals

/-- The command, without a slash in front. -/
def commandOf (s : Signals) : Except Refusal Command := do
  let name := (Text.trimChars s.command.toList).dropWhile (· = '/')
  if name.isEmpty then throw .noCommandName
  let command := Command.ofName (String.ofList name)
  let command := match s.input with
    | some r => command.withInput r
    | none => command
  s.params.foldlM (fun c typed => do
    let (key, value) ← keyValue typed
    return c.withParam key value) command

/-- A way to recover, with a slash in front of its command. -/
def recoveryOf (typed : String) : Recovery Float :=
  let command := if typed.toList.head? = some '/' then typed else "/" ++ typed
  { command, description := "Run " ++ command, confidence := none }

/-- The report of an error in words. -/
def failureOf (message : String) : Failure := { message, code := none }

/-- What the options say, on top of what is known. -/
def addTo (s : Signals) (c : Context Float) : Context Float :=
  { c with
    mappingConfidence := s.confidence.or c.mappingConfidence
    tokenEstimate := s.tokens.or c.tokenEstimate
    stepEstimate := s.steps.or c.stepEstimate
    workflowSteps := if s.workflowSteps.isEmpty then c.workflowSteps else s.workflowSteps
    inputReport := (s.inputError.map failureOf).or c.inputReport
    previousReport := (s.previousError.map failureOf).or c.previousReport
    recoveries := c.recoveries ++ s.recoveries.map recoveryOf
    recentResources := if s.recent.isEmpty then c.recentResources else s.recent
    reportedProgress := s.progress.or c.reportedProgress }

/-- The command that is checked, how its verb was mapped, and the context. -/
def resolve (s : Signals) (d : Desk Float) :
    Except Refusal (Command × Option (Mapping Float) × Context Float) := do
  let command ← s.commandOf
  if s.unmapped then
    return (command, none, s.addTo { missingParams := d.mapper.catalog.missingParams command })
  else
    let r := d.resolve command
    return (r.command, some r.mapping, s.addTo r.context)

end Signals

end Cli

end CommandDesk
