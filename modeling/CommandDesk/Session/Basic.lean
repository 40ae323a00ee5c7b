import CommandDesk.Desk
import CommandDesk.Session.Line

/-!
# Sessions

A session takes lines one after the other. While a confirmation is pending,
every line but those that leave the session or ask for help is a reply to it. A
line that is refused changes nothing.
-/

namespace CommandDesk

/-- The state of a session. -/
structure Session (α : Type) where
  desk : Desk α
  /-- The confirmation that waits for a reply. -/
  pending : Option (Confirmation α) := none
  /-- The progress that was reported last. -/
  progress : Option UInt32 := none

/-- What a line leads to: the session after it, the lines that answer it, and whether the session
is left. -/
structure Turn (α : Type) where
  session : Session α
  answer : List String := []
  leaves : Bool := false

/-- What is printed for a turn: its answer, and a mark for the next line. -/
def Turn.text {α : Type} (t : Turn α) : String :=
  String.join (t.answer.map (· ++ "\n")) ++ if t.leaves then "" else "> "

namespace Confirmation

variable {α : Type}

/-- What became of a confirmation after a reply. -/
def outcomeLines (r : Confirmation α) : List String :=
  let rest := match r.status with
    | .confirmed | .modified => match r.final with
      | some command => ["Final command: `" ++ command ++ "`"]
      | none => []
    | .pending => ["Reply not understood; still waiting for a choice."]
    | .cancelled | .timeout => []
  ("Status: " ++ word r.status) :: rest

end Confirmation

namespace Session

variable {α : Type} [Grade α]

/-- A session at a desk. -/
def start (d : Desk α) : Session α := { desk := d }

/-- What `help` answers. -/
def helpLines : List String :=
  ["Enter a command such as `/inspect-data @file:sales.csv --format md`.",
    "While a confirmation is pending, reply with an option number, a new /command, or 'cancel'.",
    "",
    "  undo [n]       undo the last n commands (default 1)",
    "  redo [n]       redo the last n undone commands",
    "  history [n]    show recent commands",
    "  progress <n>   report task progress in percent",
    "  status         show progress, history and hack counts",
    "  help           show this help",
    "  quit           leave the session"]

/-- The limit of counts. -/
def countLimit : Nat := UInt64.size

/-- The count in the second word of a line, if there is one. -/
def countOf? (words : List String) : Except LineError (Option Nat) :=
  match words[1]? with
  | none => .ok none
  | some w => match Decimal.count countLimit w with
    | .ok n => .ok (some n)
    | .error e => .error (.badCount e)

/-- Reply to the pending confirmation. -/
def reply (s : Session α) (r : Confirmation α) (line : String) : Turn α :=
  let r := r.apply (.text line)
  ⟨{ s with pending := if r.isPending then some r else none }, r.outcomeLines, false⟩

/-- Undo commands. -/
def undo (s : Session α) (n : Nat) : Turn α :=
  let (history, undone) := s.desk.history.undoMany n
  let answer := if undone.isEmpty then ["Nothing to undo."]
    else undone.map fun x => "Undone: " ++ x.command
  ⟨{ s with desk := { s.desk with history } }, answer, false⟩

/-- Redo commands. -/
def redo (s : Session α) (n : Nat) : Turn α :=
  let (history, redone) := s.desk.history.redoMany n
  let answer := if redone.isEmpty then ["Nothing to redo."]
    else redone.map fun x => "Redone: " ++ x.command
  ⟨{ s with desk := { s.desk with history } }, answer, false⟩

/-- The newest commands. -/
def historyLines (s : Session α) (n : Option Nat) : List String :=
  let recent := s.desk.history.recent n
  if recent.isEmpty then ["No history."]
  else recent.map fun x => x.line Snapshot.standardWidth

/-- The state of the desk. -/
def statusLines (s : Session α) : List String :=
  let t := s.desk.status
  let count (n : Nat) : String := Decimal.natString n
  ["Progress: " ++ t.indicator,
    "History:  " ++ count t.undoCount ++ " undoable, " ++ count t.redoCount ++ " redoable",
    "Hacks:    " ++ count t.enabledHacks.length ++ "/" ++ count t.totalHacks ++ " enabled ("
      ++ ", ".intercalate t.enabledHacks ++ ")"]

/-- Take a report of progress. More than all counts as all. -/
def report (s : Session α) (words : List String) : Except LineError (Turn α) :=
  match words[1]? with
  | none => .error .noPercentage
  | some w => match Decimal.count UInt32.size w with
    | .error e => .error (.badPercentage e)
    | .ok n =>
      let n := min n 100
      .ok ⟨{ s with progress := some (UInt32.ofNat n) },
        ["Progress set to " ++ Decimal.natString n ++ "%."], false⟩

/-- The line that tells onto which command another one was mapped. -/
def mappedLine (m : Mapping α) (name : String) : String :=
  "Mapped '" ++ m.verb ++ "' to /" ++ name ++ " (" ++ Grade.fixed 1 m.confidence ++ "%)"

/-- Take a command: map it, check it, and wait for a reply where it needs one. -/
def take (stamp : Stamp) (s : Session α) (line : String) : Except LineError (Turn α) := do
  let typed ← Command.ofLine line
  let r := s.desk.resolve typed
  let context := match s.progress with
    | some _ => { r.context with reportedProgress := s.progress }
    | none => r.context
  let mapped := if r.command.name = typed.name then []
    else [mappedLine r.mapping r.command.name]
  let (desk, o) := s.desk.enhance stamp r.command r.command.text context
  let hacks := if o.appliedHacks.isEmpty then []
    else ["Hacks: " ++ ", ".intercalate o.appliedHacks]
  if o.response.triggered then
    return ⟨{ s with desk, pending := some o.response },
      mapped ++ hacks ++ [o.response.prompt], false⟩
  else
    return ⟨{ s with desk }, mapped ++ hacks ++ ["Ready: `" ++ r.command.text ++ "`"], false⟩

/-- Take a line without blanks around it. -/
def handle (stamp : Stamp) (s : Session α) (line : String) : Except LineError (Turn α) :=
  let words := Text.words line
  match words.head? with
  | none => .ok { session := s }
  | some keyword =>
    if keyword = "quit" || keyword = "exit" then .ok { session := s, leaves := true }
    else if keyword = "help" then .ok { session := s, answer := helpLines }
    else match s.pending with
      | some r => .ok (s.reply r line)
      | none =>
        match keyword with
        | "undo" => (countOf? words).map fun n => s.undo (n.getD 1)
        | "redo" => (countOf? words).map fun n => s.redo (n.getD 1)
        | "history" => (countOf? words).map fun n => ⟨s, s.historyLines n, false⟩
        | "status" => .ok ⟨s, s.statusLines, false⟩
        | "progress" => s.report words
        | _ => s.take stamp line

/-! ## Conversation -/

/-- What a session begins with. -/
def greeting : String := "slashdash session. Type 'help' for commands, 'quit' to leave.\n> "

/-- Take a line. One that is refused is answered with the reason. -/
def turn (stamp : Stamp) (s : Session α) (line : String) : Turn α :=
  match s.handle stamp (Text.trim line) with
  | .ok t => t
  | .error e => { session := s, answer := ["error: " ++ e.message] }

/-- What is printed at the end of the input: a confirmation that still waits has timed out. -/
def farewell (s : Session α) : String :=
  match s.pending with
  | some r => if r.expire.2 then "\nConfirmation timed out.\n" else ""
  | none => ""

/-- What is printed for lines that are all taken at one time, up to the end of the input. -/
def transcript (stamp : Stamp) (s : Session α) : List String → String
  | [] => s.farewell
  | line :: lines =>
    let t := s.turn stamp line
    t.text ++ if t.leaves then "" else transcript stamp t.session lines

end Session

end CommandDesk
