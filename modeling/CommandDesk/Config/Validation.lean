import CommandDesk.Config.Basic

/-!
# Validating a configuration

What is wrong or odd about a configuration. A finding is an error when a stage
of the desk cannot be built because of it, and a warning otherwise.
-/

namespace CommandDesk

/-- How much a finding matters. -/
inductive Level where
  | warning
  | error
  deriving DecidableEq, Repr

instance : Worded Level where
  all := [.warning, .error]
  word
    | .warning => "warning"
    | .error => "error"

/-- A remark on a configuration. -/
structure Remark where
  level : Level
  message : String
  deriving DecidableEq

instance : Encode Remark where
  encode w := .ofFields [field "level" w.level, field "message" w.message]

instance : Decode Remark where
  decode? n := do
    let r ← Record.read? ["level", "message"] n
    some ⟨← r.required? "level", ← r.required? "message"⟩

/-- What can be found in a configuration. -/
inductive Finding where
  | badMapping (e : Error)
  | badProtocol (e : Error)
  | badName (name : String)
  | listedTwice (name : String)
  | noSynonyms (name : String)
  | weightOutOfRange (name synonym : String) (weight : Float)
  | unknownPreset (id : String)
  | unknownHack (id : String)
  | noEntries

namespace Finding

/-- Whether a stage cannot be built because of the finding. -/
def level : Finding → Level
  | badMapping _ | badProtocol _ | badName _ | unknownPreset _ | unknownHack _ => .error
  | listedTwice _ | noSynonyms _ | weightOutOfRange .. | noEntries => .warning

/-- The text of a finding. -/
def message : Finding → String
  | badMapping e => "mapping: " ++ e.message
  | badProtocol e => "protocol: " ++ e.message
  | badName name => "command '" ++ name ++ "' is not a valid command name"
  | listedTwice name => "command '" ++ name ++ "' is listed more than once; aliases are merged"
  | noSynonyms name => "command '" ++ name ++ "' has no synonyms and can never be mapped"
  | weightOutOfRange name synonym weight =>
    "synonym '" ++ synonym ++ "' of '" ++ name ++ "' has weight " ++ Grade.text weight
      ++ "; it will be clamped to [0, 100]"
  | unknownPreset id => "unknown hack preset '" ++ id ++ "'"
  | unknownHack id => "unknown hack '" ++ id ++ "' in overrides"
  | noEntries => "history.max_entries is 0; one entry will be kept"

/-- The finding as a remark. -/
def remark (f : Finding) : Remark := ⟨f.level, f.message⟩

/-- A finding, if the condition holds. -/
def when (condition : Bool) (f : Finding) : List Finding := if condition then [f] else []

/-- A finding about an error, if there is one. -/
def ofResult {β : Type} (f : Error → Finding) : Except Error β → List Finding
  | .error e => [f e]
  | .ok _ => []

end Finding

namespace Config

open Finding

/-- What is found about an entry that follows entries of those names. -/
def entryFindings (before : List String) (e : CommandEntry) : List Finding :=
  when (!Name.isValid e.name) (badName e.name)
    ++ when (before.contains e.name) (listedTwice e.name)
    ++ when e.synonyms.isEmpty (noSynonyms e.name)
    ++ (e.synonyms.entries.filter fun s => !MapRules.inRange s.2).map fun s =>
      weightOutOfRange e.name s.1 s.2

/-- What is found about entries that follow entries of those names. -/
def entriesFindings (before : List String) : List CommandEntry → List Finding
  | [] => []
  | e :: es => entryFindings before e ++ entriesFindings (e.name :: before) es

/-- What is found about the choice of hacks. -/
def hackFindings (h : HackChoice) : List Finding :=
  when (Preset.find? h.preset).isNone (.unknownPreset h.preset)
    ++ (h.overrides.keys.filter fun id => (HackSet.standard.get? id).isNone).map .unknownHack

/-- Everything that is found. -/
def findings (c : Config) : List Finding :=
  ofResult badMapping c.mapping.validate ++ ofResult badProtocol c.protocol.validate
    ++ entriesFindings [] c.commands ++ hackFindings c.hacks
    ++ when (c.maxEntries = 0) noEntries

/-- The remarks on a configuration. -/
def validate (c : Config) : List Remark := c.findings.map (·.remark)

end Config

end CommandDesk
