import CommandDesk.Command.Basic
import CommandDesk.Decimal.Count

/-!
# Typed commands

A command as a person types it: its name after a slash, then an input after an
at sign and parameters after two hyphens, in any order. A parameter without a
value is a switch.
-/

namespace CommandDesk

/-- Why a typed line is refused. -/
inductive LineError where
  | noCommand
  | unexpected (word : String)
  | invalidInput (word : String)
  | badCount (e : Decimal.CountError)
  | noPercentage
  | badPercentage (e : Decimal.CountError)
  deriving DecidableEq

/-- The wording. -/
def LineError.message : LineError → String
  | noCommand => "empty command"
  | unexpected word => "unexpected argument '" ++ word ++ "'"
  | invalidInput word => (Error.invalidInputRef word).message
  | badCount e => "expected a number: " ++ e.message
  | noPercentage => "usage: progress <percent>"
  | badPercentage e => "progress must be a whole number: " ++ e.message

namespace Command

/-- What follows two hyphens at the start of a word. -/
def afterHyphens? (word : String) : Option String :=
  match word.toList with
  | '-' :: '-' :: s => some (String.ofList s)
  | _ => none

/-- Whether a word names an input. -/
def namesInput (word : String) : Bool := word.toList.head? = some '@'

/-- Whether a word is the value of the parameter before it. -/
def isValue (word : String) : Bool := (afterHyphens? word).isNone && !namesInput word

/-- The key that a typed parameter is kept under. -/
def keyOf (typed : String) : String := Text.replaceChar '-' '_' typed

/-- Add what the words say to a command. -/
def addWords (c : Command) : List String → Except LineError Command
  | [] => .ok c
  | word :: rest =>
    if namesInput word then
      match InputRef.parse? word with
      | some r => addWords (c.withInput r) rest
      | none => .error (.invalidInput word)
    else match afterHyphens? word with
      | none => .error (.unexpected word)
      | some typed =>
        match rest with
        | [] => .ok (c.withParam (keyOf typed) (.flag true))
        | value :: others =>
          if isValue value then addWords (c.withParam (keyOf typed) (.str value)) others
          else addWords (c.withParam (keyOf typed) (.flag true)) (value :: others)

/-- The command that a line types. -/
def ofLine (line : String) : Except LineError Command :=
  match Text.words line with
  | [] => .error .noCommand
  | first :: rest =>
    let name := String.ofList (first.toList.dropWhile (· = '/'))
    if name.isEmpty then .error .noCommand else addWords (ofName (Text.lower name)) rest

end Command

end CommandDesk
