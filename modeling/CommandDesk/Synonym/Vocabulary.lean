import CommandDesk.Synonym.Score

/-!
# Vocabularies

A vocabulary lists commands, in the order in which they were first registered,
each with its weighted synonyms. Synonyms are normalized and weights clamped when
they are registered.
-/

namespace CommandDesk

/-- A command with its synonyms. -/
structure Group (α : Type) where
  command : String
  synonyms : Synonyms α
  deriving DecidableEq, BEq

/-- The commands that are known by synonyms. -/
structure Vocabulary (α : Type) where
  groups : List (Group α)
  deriving DecidableEq, BEq

namespace Vocabulary

variable {α : Type} [Grade α]

/-- The vocabulary without commands. -/
def empty : Vocabulary α := ⟨[]⟩

/-- The commands, in order. -/
def commands (v : Vocabulary α) : List String := v.groups.map (·.command)

/-- Whether a command is listed. -/
def contains (v : Vocabulary α) (command : String) : Bool :=
  v.groups.any (·.command = command)

/-- The synonyms of a command. -/
def get? (v : Vocabulary α) (command : String) : Option (Synonyms α) :=
  (v.groups.find? (·.command = command)).map (·.synonyms)

/-- Change the first entry that satisfies `p`. -/
def changeFirst {β : Type} (p : β → Bool) (f : β → β) : List β → List β
  | [] => []
  | b :: bs => if p b then f b :: bs else b :: changeFirst p f bs

/-- Change the synonyms of a command, which is added at the end when it is new. -/
def update (v : Vocabulary α) (command : String) (f : Synonyms α → Synonyms α) : Vocabulary α :=
  if v.contains command then
    ⟨changeFirst (·.command = command) (fun g => { g with synonyms := f g.synonyms }) v.groups⟩
  else ⟨v.groups ++ [⟨command, f .empty⟩]⟩

/-- Give a command a synonym. -/
def add (v : Vocabulary α) (command synonym : String) (weight : α) : Vocabulary α :=
  v.update command fun t => t.insert (Text.normalize synonym) (Grade.clamp weight)

/-- Give a command several synonyms, possibly none. -/
def register (v : Vocabulary α) (command : String) (synonyms : List (String × α)) :
    Vocabulary α :=
  v.update command fun t =>
    t.insertAll (synonyms.map fun (a, w) => (Text.normalize a, Grade.clamp w))

/-- Whether a command has a synonym. -/
def hasSynonym (v : Vocabulary α) (command synonym : String) : Bool :=
  (v.get? command).any (·.contains (Text.normalize synonym))

/-- Take a synonym from a command, and say whether it was there. -/
def removeSynonym (v : Vocabulary α) (command synonym : String) : Vocabulary α × Bool :=
  (⟨changeFirst (·.command = command)
      (fun g => { g with synonyms := g.synonyms.erase (Text.normalize synonym) }) v.groups⟩,
    v.hasSynonym command synonym)

/-- Remove a command with its synonyms, and say whether it was listed. -/
def removeCommand (v : Vocabulary α) (command : String) : Vocabulary α × Bool :=
  let kept := v.groups.filter (·.command ≠ command)
  (⟨kept⟩, kept.length != v.groups.length)

/-- The commands that have a synonym, by descending weight. -/
def withSynonym (v : Vocabulary α) (synonym : String) : List (String × α) :=
  Grade.ranked (·.2)
    (v.groups.filterMap fun g => (g.synonyms.get? (Text.normalize synonym)).map (g.command, ·))

/-- The commands with their synonyms as pairs, in order. -/
def toList (v : Vocabulary α) : List (String × Synonyms α) :=
  v.groups.map fun g => (g.command, g.synonyms)

/-! ## The vocabulary to start with -/

/-- The commands that every project starts with, and the weights of their synonyms. -/
def standardSynonyms : List (String × List (String × Nat)) := [
  ("analyze-data",
    [("analyze", 100), ("inspect", 95), ("examine", 92), ("investigate", 90), ("review", 85),
      ("check", 80), ("study", 78), ("evaluate", 75)]),
  ("summarize-doc",
    [("summarize", 100), ("digest", 95), ("condense", 92), ("brief", 90), ("abstract", 88),
      ("outline", 85), ("recap", 82)]),
  ("convert-file",
    [("convert", 100), ("transform", 95), ("change", 88), ("translate", 85), ("switch", 80),
      ("modify", 75)]),
  ("generate-site",
    [("generate", 100), ("create", 98), ("build", 95), ("make", 90), ("produce", 85),
      ("construct", 82)]),
  ("deploy-site", [("deploy", 100), ("publish", 95), ("release", 92), ("launch", 90)]),
  ("delete-file", [("delete", 100), ("remove", 95), ("erase", 92), ("destroy", 90)]),
  ("list-files", [("list", 100), ("show", 95), ("display", 92), ("enumerate", 88)]),
  ("search-content",
    [("search", 100), ("find", 98), ("locate", 95), ("lookup", 92), ("query", 88)])]

/-- The weights of synonyms as grades. -/
def gradesOf (synonyms : List (String × Nat)) : List (String × α) :=
  synonyms.map fun (a, w) => (a, Grade.ofNat w)

/-- The vocabulary that every project starts with. -/
def standard : Vocabulary α :=
  standardSynonyms.foldl (fun v g => v.register g.1 (gradesOf g.2)) empty

/-! ## Documents -/

instance [Encode α] : Encode (Group α) :=
  ⟨fun g => .ofFields [field "command" g.command, field "aliases" g.synonyms]⟩

instance [Encode α] : Encode (Vocabulary α) :=
  ⟨fun v => .ofFields [field "entries" v.groups]⟩

end Vocabulary

end CommandDesk
