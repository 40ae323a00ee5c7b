import CommandDesk.Config.Basic
import CommandDesk.Yaml.Printer
import CommandDesk.Yaml.Reader

/-!
# Configuration documents

How a configuration is written to a document and read from it. Every part may be
left out and then has its standard value. The text of a configuration is YAML.
-/

namespace CommandDesk

instance : Encode CommandEntry where
  encode e := .ofFields
    [field "name" e.name, field "description" e.description, field "risk_level" e.risk,
      fieldIfAny "required_params" e.requiredParams, fieldIfAny "input_types" e.inputTypes,
      field "synonyms" e.synonyms]

instance : Decode CommandEntry where
  decode? n := do
    let r ← Record.read?
      ["name", "description", "risk_level", "required_params", "input_types", "synonyms"] n
    some
      { name := ← r.required? "name"
        description := ← r.defaulted? "description" ""
        risk := ← r.defaulted? "risk_level" Risk.low
        requiredParams := ← r.defaulted? "required_params" []
        inputTypes := ← r.defaulted? "input_types" []
        synonyms := ← r.defaulted? "synonyms" .empty }

instance : Encode HackChoice where
  encode h := .ofFields [field "preset" h.preset, fieldIfEntries "overrides" h.overrides]

instance : Decode HackChoice where
  decode? n := do
    let r ← Record.read? ["preset", "overrides"] n
    some ⟨← r.defaulted? "preset" "recommended", ← r.defaulted? "overrides" .empty⟩

namespace Config

/-- The settings of the history as a part of their own. -/
structure HistoryPart where
  maxEntries : UInt64

instance : Encode HistoryPart := ⟨fun h => .ofFields [field "max_entries" h.maxEntries]⟩

instance : Decode HistoryPart where
  decode? n := do
    let r ← Record.read? ["max_entries"] n
    some ⟨← r.defaulted? "max_entries" (100 : UInt64)⟩

instance : Encode Config where
  encode c := .ofFields
    [field "version" c.version, field "mapping" c.mapping, field "protocol" c.protocol,
      field "commands" c.commands, field "hacks" c.hacks, field "injection" c.injection,
      field "integration" c.integration, field "history" (HistoryPart.mk c.maxEntries)]

instance : Decode Config where
  decode? n := do
    let r ← Record.read? ["version", "mapping", "protocol", "commands", "hacks", "injection",
      "integration", "history"] n
    let history : HistoryPart ← r.defaulted? "history" ⟨100⟩
    some
      { version := ← r.defaulted? "version" (1 : UInt32)
        mapping := ← r.defaulted? "mapping" MapRules.standard
        protocol := ← r.defaulted? "protocol" Protocol.standard
        commands := ← r.defaulted? "commands" standardCommands
        hacks := ← r.defaulted? "hacks" {}
        injection := ← r.defaulted? "injection" {}
        integration := ← r.defaulted? "integration" {}
        maxEntries := history.maxEntries }

/-- The text of a configuration. -/
def print (c : Config) : String := Yaml.print (encode c)

/-- Read the text of a configuration. -/
def parse (text : String) : Except Error Config :=
  match (Yaml.parse? text).bind decode? with
  | some c => .ok c
  | none => .error .malformedDocument

end Config

end CommandDesk
