import CommandDesk.Command.Basic
import CommandDesk.Risk

/-!
# The catalog of commands

What is known of each command besides its synonyms: a description, a risk level,
the parameters it must be given and the inputs it takes. A name is registered
once; a new entry of the same name takes the place of the old one.
-/

namespace CommandDesk

/-- What is known of a command. -/
structure Spec where
  name : String
  description : String
  risk : Risk
  requiredParams : List String
  inputTypes : List String
  deriving DecidableEq, BEq

namespace Spec

/-- The part of the name before the first hyphen. -/
def verb (s : Spec) : String := Name.verb s.name

/-- The part of the name after the first hyphen. -/
def noun (s : Spec) : String := Name.noun s.name

instance : Encode Spec where
  encode s := .ofFields
    [field "name" s.name, field "description" s.description, field "risk_level" s.risk,
      fieldIfAny "required_params" s.requiredParams, fieldIfAny "input_types" s.inputTypes]

instance : Decode Spec where
  decode? n := do
    let r ← Record.read?
      ["name", "description", "risk_level", "required_params", "input_types"] n
    some
      { name := ← r.required? "name"
        description := ← r.defaulted? "description" ""
        risk := ← r.defaulted? "risk_level" Risk.low
        requiredParams := ← r.defaulted? "required_params" []
        inputTypes := ← r.defaulted? "input_types" [] }

end Spec

/-- The known commands, in the order in which their names were registered. -/
structure Catalog where
  specs : List Spec
  deriving DecidableEq, BEq

namespace Catalog

/-- The catalog without commands. -/
def empty : Catalog := ⟨[]⟩

/-- The entry of a name. -/
def get? (c : Catalog) (name : String) : Option Spec := c.specs.find? (·.name = name)

/-- Whether a name is registered. -/
def contains (c : Catalog) (name : String) : Bool := (c.get? name).isSome

/-- The names, in order. -/
def names (c : Catalog) : List String := c.specs.map (·.name)

/-- Put an entry in the place of the one with its name, or at the end. -/
def putSpec (s : Spec) : List Spec → List Spec
  | [] => [s]
  | t :: ts => if t.name = s.name then s :: ts else t :: putSpec s ts

/-- Register an entry under its name, which must be valid. -/
def register (c : Catalog) (s : Spec) : Except Error Catalog := do
  Name.validate s.name
  return ⟨putSpec s c.specs⟩

/-- Remove a name, and say whether it was registered. -/
def unregister (c : Catalog) (name : String) : Catalog × Bool :=
  let kept := c.specs.filter (·.name ≠ name)
  (⟨kept⟩, kept.length != c.specs.length)

/-- The description of a name, if it has one that is not empty. -/
def description? (c : Catalog) (name : String) : Option String :=
  ((c.get? name).map (·.description)).filter (!·.isEmpty)

/-- The entries with a verb. -/
def withVerb (c : Catalog) (verb : String) : List Spec := c.specs.filter (·.verb = verb)

/-- The entries with a high risk. -/
def highRisk (c : Catalog) : List Spec := c.specs.filter (·.risk.isHigh)

/-- The required parameters that a command does not carry. A command that is not registered
requires none. -/
def missingParams (c : Catalog) (command : Command) : List String :=
  match c.get? command.name with
  | some s => s.requiredParams.filter fun p => !command.params.contains p
  | none => []

/-- An entry without parameters and inputs. -/
def plain (name description : String) (risk : Risk) : Spec := ⟨name, description, risk, [], []⟩

/-- The catalog that every project starts with. -/
def standard : Catalog := ⟨[
  plain "analyze-data" "Run a detailed analysis of the data" .low,
  plain "summarize-doc" "Produce a summary of the document" .low,
  plain "convert-file" "Convert the file to another format" .medium,
  plain "generate-site" "Generate a static site" .low,
  plain "deploy-site" "Deploy the site" .high,
  plain "delete-file" "Delete the file" .critical,
  plain "list-files" "List available files" .low,
  plain "search-content" "Search the content" .low]⟩

instance : Encode Catalog := ⟨fun c => .ofFields [field "specs" c.specs]⟩

end Catalog

end CommandDesk
