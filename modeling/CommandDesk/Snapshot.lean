import CommandDesk.Decimal.Notation
import CommandDesk.Node.Codec
import CommandDesk.Text.Cut

/-!
# Snapshots of commands

A snapshot records a command as it was executed, or was about to be: when, what
it changed, and whether it failed.
-/

namespace CommandDesk

/-- A change of something named by a key. -/
structure StateChange where
  key : String
  before : Node
  after : Node
  deriving BEq

namespace StateChange

/-- Whether there is something to go back to. -/
def canRestore (c : StateChange) : Bool := !c.before.isNull

instance : Encode StateChange where
  encode c := .ofFields [field "key" c.key, some ("before", c.before), some ("after", c.after)]

instance : Decode StateChange where
  decode? n := do
    let r ← Record.read? ["key", "before", "after"] n
    some ⟨← r.required? "key", ← r.find? "before", ← r.find? "after"⟩

end StateChange

/-- What tells one snapshot from another: a number of its own and the time, in seconds since the
start of 1970. -/
structure Stamp where
  serial : UInt64
  seconds : Int
  deriving DecidableEq

/-- The first second that has a date. -/
def Stamp.earliest : Int := -8334601228800

/-- The last second that has a date. -/
def Stamp.latest : Int := 8210266876799

/-- A command as it was executed, or was about to be. -/
structure Snapshot where
  id : String
  command : String
  commandName : String
  seconds : Int
  states : List StateChange
  reversible : Bool
  executed : Bool
  failure : Option String
  deriving BEq

namespace Snapshot

/-- How many serial numbers have ids of their own. -/
def serialLimit : Nat := Nat.pow 16 12

/-- The id of a serial number: its last twelve hexadecimal digits. -/
def idOf (serial : UInt64) : String :=
  let digits := Nat.toDigits 16 (serial.toNat % serialLimit)
  "cmd_" ++ String.ofList (List.replicate (12 - digits.length) '0' ++ digits)

/-- A command that is about to be executed. -/
def ofCommand (stamp : Stamp) (command commandName : String) : Snapshot :=
  ⟨idOf stamp.serial, command, commandName, stamp.seconds, [], true, false, none⟩

/-- Note that the command was executed. One that failed cannot be undone. -/
def markExecuted (s : Snapshot) (failure : Option String) : Snapshot :=
  { s with executed := true, reversible := s.reversible && failure.isNone, failure }

/-- Whether the command was executed, did not fail, and can be undone. -/
def canUndo (s : Snapshot) : Bool := s.reversible && s.executed && s.failure.isNone

/-- The sign of what became of the command. -/
def mark (s : Snapshot) : Char :=
  if s.failure.isSome then '✗' else if s.executed then '✓' else '○'

/-- A number below one hundred with two digits. -/
def twoDigits (n : Nat) : List Char := [Nat.digitChar (n / 10 % 10), Nat.digitChar (n % 10)]

/-- The time of day, in universal time. -/
def clock (seconds : Int) : String :=
  let s := (seconds % 86400).toNat
  String.ofList (twoDigits (s / 3600) ++ [':'] ++ twoDigits (s / 60 % 60) ++ [':']
    ++ twoDigits (s % 60))

/-- The first characters of a text and dots, if it is longer than the width. -/
def shorten (width : Nat) (s : String) : String :=
  let cs := s.toList
  if width < cs.length && 3 < width then String.ofList (cs.take (width - 3)) ++ "..." else s

/-- The snapshot on one line, with the command cut to a width. -/
def line (s : Snapshot) (width : Nat) : String :=
  s.mark.toString ++ " [" ++ clock s.seconds ++ "] " ++ shorten width s.command

/-- The width of a command in a list. -/
def standardWidth : Nat := 50

end Snapshot

end CommandDesk
