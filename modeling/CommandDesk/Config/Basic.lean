import CommandDesk.Desk

/-!
# Configuration

The configuration of a project: its commands with their synonyms, and the
settings of every stage of the desk. The stages are built from it.
-/

namespace CommandDesk

/-- A command of the configuration: its catalog entry with its synonyms. -/
structure CommandEntry extends Spec where
  synonyms : Synonyms Float
  deriving DecidableEq, BEq

/-- The choice of hacks: a preset, and switches that are applied after it. -/
structure HackChoice where
  preset : String := "recommended"
  overrides : Table Bool := .empty
  deriving DecidableEq, BEq

/-- The settings of a project. -/
structure Config where
  version : UInt32
  mapping : MapRules Float
  protocol : Protocol Float
  commands : List CommandEntry
  hacks : HackChoice
  injection : InjectOptions
  integration : Integration
  maxEntries : UInt64
  deriving DecidableEq, BEq

namespace CommandEntry

/-- An entry without anything but a name and synonyms. -/
def ofName (name : String) (synonyms : Synonyms Float) : CommandEntry :=
  { name, description := "", risk := .low, requiredParams := [], inputTypes := [], synonyms }

/-- The entry of a command that every project starts with. -/
def standard (name : String) (synonyms : List (String × Nat)) : CommandEntry :=
  let synonyms := Table.ofList (Vocabulary.gradesOf synonyms)
  match Catalog.standard.get? name with
  | some spec => { spec with synonyms }
  | none => ofName name synonyms

end CommandEntry

namespace Config

/-- The commands that every project starts with. -/
def standardCommands : List CommandEntry :=
  Vocabulary.standardSynonyms.map fun (name, synonyms) => .standard name synonyms

/-- The configuration that every project starts with. -/
def standard : Config where
  version := 1
  mapping := .standard
  protocol := .standard
  commands := standardCommands
  hacks := {}
  injection := {}
  integration := {}
  maxEntries := 100

/-- The entry of a command. -/
def command? (c : Config) (name : String) : Option CommandEntry :=
  c.commands.find? (·.name = name)

/-! ## Editing -/

/-- Change the first entry of a command. -/
def changeEntry (name : String) (f : CommandEntry → CommandEntry) :
    List CommandEntry → List CommandEntry
  | [] => []
  | e :: es => if e.name = name then f e :: es else e :: changeEntry name f es

/-- Give a command a synonym. A command that is new is added at the end. -/
def addSynonym (c : Config) (command synonym : String) (weight : Float) : Except Error Config := do
  Name.validate command
  let synonym := Text.normalize synonym
  if synonym.isEmpty then throw .emptySynonym
  let weight := Grade.clamp weight
  if (c.command? command).isSome then
    return { c with
      commands := changeEntry command
        (fun e => { e with synonyms := e.synonyms.insert synonym weight }) c.commands }
  else
    return { c with
      commands := c.commands ++ [.ofName command (Table.empty.insert synonym weight)] }

/-- Take a synonym from a command, and whether it was there. -/
def removeSynonym (c : Config) (command synonym : String) : Except Error (Config × Bool) :=
  let synonym := Text.normalize synonym
  match c.command? command with
  | none => .error (.unknownCommand command)
  | some entry =>
    let commands :=
      changeEntry command (fun e => { e with synonyms := e.synonyms.erase synonym }) c.commands
    .ok ({ c with commands }, entry.synonyms.contains synonym)

/-- Choose a preset of hacks, without switches on top of it. -/
def choosePreset (c : Config) (p : Preset) : Config :=
  { c with hacks := { preset := p.id, overrides := .empty } }

/-- Switch a hack on or off, on top of the preset. -/
def switchHack (c : Config) (id : String) (enabled : Bool) : Config :=
  { c with hacks := { c.hacks with overrides := c.hacks.overrides.insert id enabled } }

/-! ## Building the stages -/

/-- The vocabulary of the commands. Entries of one name are merged. -/
def vocabulary (c : Config) : Vocabulary Float :=
  c.commands.foldl (fun v e => v.register e.name e.synonyms.entries) .empty

/-- The catalog of the commands. -/
def catalog (c : Config) : Except Error Catalog :=
  c.commands.foldlM (fun catalog e => catalog.register e.toSpec) .empty

/-- The mapper. -/
def mapper (c : Config) : Except Error (Mapper Float) := do
  c.mapping.validate
  let catalog ← c.catalog
  return ⟨c.vocabulary, catalog, c.mapping⟩

/-- The set of hacks: the preset, then the switches. -/
def hackSet (c : Config) : Except Error HackSet :=
  match Preset.find? c.hacks.preset with
  | none => .error (.unknownPreset c.hacks.preset)
  | some p =>
    c.hacks.overrides.entries.foldlM (fun s (id, enabled) => s.setEnabled id enabled)
      (HackSet.standard.applyPreset p)

/-- The desk. -/
def desk (c : Config) : Except Error (Desk Float) := do
  let mapper ← c.mapper
  let protocol ← c.protocol.make
  let hacks ← c.hackSet
  return {
    mapper
    protocol
    progress := .ofHacks hacks
    history := .ofLimit c.maxEntries.toNat
    integration := c.integration
    injection := c.injection }

end Config

end CommandDesk
