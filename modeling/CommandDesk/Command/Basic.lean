import CommandDesk.Command.InputRef
import CommandDesk.Command.Name
import CommandDesk.Command.Param
import CommandDesk.Table
import CommandDesk.Text.Lowercase

/-!
# Commands

A command has a name, perhaps an input, and parameters. Its verb and noun are
the parts of the name. `Command.text` is the form in which a person types it.
-/

namespace CommandDesk

/-- A command with its input and parameters. -/
structure Command where
  name : String
  verb : String
  noun : String
  input : Option InputRef
  params : Table Param
  deriving DecidableEq, BEq

namespace Command

/-- The command of that name, trimmed and in lowercase, without input and parameters. -/
def ofName (s : String) : Command :=
  let name := Text.normalize s
  ⟨name, Name.verb name, Name.noun name, none, .empty⟩

/-- Another command with the same input and parameters. -/
def retarget (c : Command) (name : String) : Command :=
  { ofName name with input := c.input, params := c.params }

/-- The same command with another input. -/
def withInput (c : Command) (input : InputRef) : Command := { c with input := some input }

/-- Set a parameter. -/
def withParam (c : Command) (key : String) (value : Param) : Command :=
  { c with params := c.params.insert key value }

/-- A parameter as it is typed. Underscores of the key become hyphens, and a switch that is on
is written without a value. -/
def paramText (key : String) (value : Param) : String :=
  let option := " --" ++ Text.replaceChar '_' '-' key
  match value with
  | .flag true => option
  | v => option ++ " " ++ v.text

/-- The command as a person types it. -/
def text (c : Command) : String :=
  let input := match c.input with
    | some r => " " ++ r.text
    | none => ""
  "/" ++ c.name ++ input ++ String.join (c.params.entries.map fun e => paramText e.1 e.2)

instance : Encode Command where
  encode c := .ofFields
    [field "command_name" c.name, field "verb" c.verb, field "noun" c.noun,
      fieldIfSome "input" c.input, fieldIfEntries "parameters" c.params]

instance : Decode Command where
  decode? n := do
    let r ← Record.read? ["command_name", "verb", "noun", "input", "parameters"] n
    some
      { name := ← r.required? "command_name"
        verb := ← r.required? "verb"
        noun := ← r.required? "noun"
        input := ← r.defaulted? "input" none
        params := ← r.defaulted? "parameters" .empty }

end Command

end CommandDesk
