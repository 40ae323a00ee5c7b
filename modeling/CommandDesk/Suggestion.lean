import CommandDesk.Command.Basic
import CommandDesk.Context
import CommandDesk.Risk

/-!
# Suggestions

The numbered options that a person is offered when a confirmation is needed.
Every list is cut to a length and numbered from one.
-/

namespace CommandDesk

/-- One option. -/
structure Suggestion (α : Type) where
  index : UInt64
  command : String
  description : String
  confidence : α
  risk : Risk
  deriving DecidableEq, BEq

namespace Suggestion

variable {α : Type}

/-- The option as it is printed. -/
def text (s : Suggestion α) : String :=
  Decimal.natString s.index.toNat ++ ". " ++ s.description ++ "\n   `" ++ s.command ++ "`"

instance [Encode α] : Encode (Suggestion α) where
  encode s := .ofFields
    [field "index" s.index, field "command" s.command, field "description" s.description,
      field "confidence" s.confidence, field "risk_level" s.risk]

instance [Decode α] : Decode (Suggestion α) where
  decode? n := do
    let r ← Record.read? ["index", "command", "description", "confidence", "risk_level"] n
    some
      { index := ← r.required? "index"
        command := ← r.required? "command"
        description := ← r.required? "description"
        confidence := ← r.required? "confidence"
        risk := ← r.defaulted? "risk_level" Risk.low }

end Suggestion

/-- An option before it has a number. -/
structure Draft (α : Type) where
  command : String
  description : String
  confidence : α
  risk : Risk := .low

namespace Draft

variable {α : Type}

/-- The option with the number that follows `i`. -/
def number (d : Draft α) (i : Nat) : Suggestion α :=
  ⟨UInt64.ofNat (i + 1), d.command, d.description, d.confidence, d.risk⟩

end Draft

namespace Suggestion

variable {α : Type}

/-- The first `limit` options, numbered from one. -/
def numbered (limit : UInt64) (drafts : List (Draft α)) : List (Suggestion α) :=
  ((drafts.take limit.toNat).zipIdx).map fun (d, i) => d.number i

/-! ## The options for each occasion -/

variable [Grade α]

/-- How many recent resources are offered. -/
def maxResources : Nat := 3

/-- Above this many steps a large task can be split. -/
def splitAbove : Nat := 5

/-- The option to run a candidate in place of the command. -/
def candidateDraft (command : Command) (c : Candidate α) : Draft α :=
  let name := String.ofList (c.command.toList.dropWhile (· = '/'))
  let description := (c.description.filter (!·.isEmpty)).getD ("Run /" ++ name)
  { command := (command.retarget name).text, description, confidence := c.confidence }

/-- For an ambiguous verb: the candidates by descending confidence, each with the input and the
parameters of the command. -/
def forAmbiguous (limit : UInt64) (command : Command) (candidates : List (Candidate α)) :
    List (Suggestion α) :=
  numbered limit ((Grade.ranked (·.confidence) candidates).map (candidateDraft command))

/-- The command that makes a backup before another one. -/
def backupCommand (command : Command) : String :=
  match command.input with
  | some r => "/backup " ++ r.text ++ " && " ++ command.text
  | none => "/backup && " ++ command.text

/-- For an irreversible command: execute, cancel, or make a backup first. -/
def forHighRisk (limit : UInt64) (command : Command) : List (Suggestion α) :=
  numbered limit
    [{ command := command.text, description := "Execute anyway (cannot be undone)",
       confidence := 100.0, risk := .high },
     { command := "cancel", description := "Cancel the operation", confidence := 100.0 },
     { command := backupCommand command, description := "Back up first, then execute",
       confidence := 90.0, risk := .medium }]

/-- The option to use a recent resource as the input. What is not written as a reference counts
as a file. -/
def resourceDraft (command : Command) (resource : String) (i : Nat) : Draft α :=
  let input := (InputRef.parse? resource).getD ⟨"file", resource⟩
  { command := (command.withInput input).text
    description := "Use recent file: " ++ resource
    confidence := 80.0 - Grade.ofNat (i + 1) * 10.0 }

/-- For a missing input: up to three recent resources, then an upload. -/
def forMissingInput (limit : UInt64) (command : Command) (recent : List String) :
    List (Suggestion α) :=
  let resources := ((recent.take maxResources).zipIdx).map fun (r, i) => resourceDraft command r i
  numbered limit (resources ++
    [{ command := "upload", description := "Upload a new file", confidence := 60.0 }])

/-- The option to recover in a proposed way. -/
def recoveryDraft (o : Recovery α) : Draft α :=
  { command := o.command, description := o.description, confidence := o.confidence.getD 50.0 }

/-- After a failure: the proposed recoveries, of which one less than the limit is kept, then the
command once more. -/
def forFailure (limit : UInt64) (command : Command) (recoveries : List (Recovery α)) :
    List (Suggestion α) :=
  numbered limit ((recoveries.take (limit.toNat - 1)).map recoveryDraft ++
    [{ command := command.text, description := "Retry the original command",
       confidence := 30.0 }])

/-- The option to run the first half of a large task. -/
def halfDraft (command : Command) (half : Nat) : Draft α :=
  { command := command.text ++ " --steps 1-" ++ Decimal.natString half
    description := "Run the first " ++ Decimal.natString half ++ " steps now"
    confidence := 70.0 }

/-- For a large task: run it, trim it, run half of it if it has enough steps, or cancel. -/
def forLargeTask (limit : UInt64) (command : Command) (steps : Nat) : List (Suggestion α) :=
  let run : Draft α :=
    { command := command.text
      description := "Run the full workflow (" ++ Decimal.natString steps ++ " steps)"
      confidence := 100.0 }
  let trim : Draft α :=
    { command := "trim", description := "Trim the workflow to selected steps",
      confidence := 80.0 }
  let cancel : Draft α :=
    { command := "cancel", description := "Cancel the task", confidence := 100.0 }
  let half := if splitAbove < steps then [halfDraft command (steps / 2)] else []
  numbered limit ([run, trim] ++ half ++ [cancel])

end Suggestion

end CommandDesk
