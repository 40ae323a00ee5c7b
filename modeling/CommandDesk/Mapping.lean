import CommandDesk.Synonym.Vocabulary
import CommandDesk.Catalog
import CommandDesk.Context

/-!
# Mapping verbs onto commands

A verb is scored against every command of a vocabulary. Scores below a floor
are dropped, those of commands with another noun reduced, and the rest ranked;
commands with equal scores keep the order of the vocabulary. The best command
is used directly when its score reaches a threshold.
-/

namespace CommandDesk

/-- The thresholds of a mapper. -/
structure MapRules (α : Type) where
  /-- A command with at least this score is used without asking. -/
  direct : α
  /-- Scores below this are dropped. -/
  reject : α
  /-- Whether a verb can score by resemblance. -/
  fuzzy : Bool
  deriving DecidableEq, BEq

namespace MapRules

variable {α : Type}

/-- The rules that a project starts with. -/
def standard [Grade α] : MapRules α := ⟨90.0, 30.0, true⟩

/-- Whether a threshold lies between zero and one hundred. -/
def inRange [Grade α] (x : α) : Bool := (0.0 : α) ≤ x && x ≤ (100.0 : α)

/-- Refuse rules with a threshold out of range or a floor above the direct threshold. -/
def validate [Grade α] (r : MapRules α) : Except Error Unit :=
  if !inRange r.direct then
    .error (.thresholdOutOfRange "direct_threshold" (Grade.text r.direct))
  else if !inRange r.reject then
    .error (.thresholdOutOfRange "reject_threshold" (Grade.text r.reject))
  else if r.direct < r.reject then
    .error (.rejectAboveDirect (Grade.text r.reject) (Grade.text r.direct))
  else .ok ()

instance [Encode α] : Encode (MapRules α) where
  encode r := .ofFields
    [field "direct_threshold" r.direct, field "reject_threshold" r.reject,
      field "fuzzy_match" r.fuzzy]

instance [Grade α] [Decode α] : Decode (MapRules α) where
  decode? n := do
    let r ← Record.read? ["direct_threshold", "reject_threshold", "fuzzy_match"] n
    some
      { direct := ← r.defaulted? "direct_threshold" standard.direct
        reject := ← r.defaulted? "reject_threshold" standard.reject
        fuzzy := ← r.defaulted? "fuzzy_match" true }

end MapRules

/-- What a verb was mapped to. -/
structure Mapping (α : Type) where
  verb : String
  matched : Bool
  target : Option String
  confidence : α
  targetDescription : Option String
  alternatives : List (Candidate α)
  requiresConfirmation : Bool
  deriving DecidableEq, BEq

namespace Mapping

variable {α : Type}

/-- The mapping of a verb that stands for no command. -/
def unmatched [Grade α] (verb : String) : Mapping α := ⟨verb, false, none, 0.0, none, [], true⟩

/-- The target, if there is one, before the alternatives. -/
def candidates (m : Mapping α) : List (Candidate α) :=
  match m.target with
  | some command => ⟨command, m.confidence, m.targetDescription⟩ :: m.alternatives
  | none => m.alternatives

/-- The context in which a command mapped like this is checked. -/
def context (m : Mapping α) : Context α :=
  { mappingConfidence := some m.confidence, candidates := m.candidates }

instance [Encode α] : Encode (Mapping α) where
  encode m := .ofFields
    [field "input_verb" m.verb, field "matched" m.matched, field "target_command" m.target,
      field "confidence" m.confidence, fieldIfSome "target_description" m.targetDescription,
      field "alternatives" m.alternatives,
      field "requires_confirmation" m.requiresConfirmation]

instance [Decode α] : Decode (Mapping α) where
  decode? n := do
    let r ← Record.read? ["input_verb", "matched", "target_command", "confidence",
      "target_description", "alternatives", "requires_confirmation"] n
    some
      { verb := ← r.required? "input_verb"
        matched := ← r.required? "matched"
        target := ← r.optional? "target_command"
        confidence := ← r.required? "confidence"
        targetDescription := ← r.defaulted? "target_description" none
        alternatives := ← r.required? "alternatives"
        requiresConfirmation := ← r.required? "requires_confirmation" }

end Mapping

/-- A vocabulary with the rules for mapping onto its commands and a catalog for describing
them. -/
structure Mapper (α : Type) where
  vocabulary : Vocabulary α
  catalog : Catalog
  rules : MapRules α

namespace Mapper

variable {α : Type} [Grade α]

/-- The factor for a command with another noun. -/
def nounPenalty : α := 0.7

/-- How many commands are kept besides the best one. -/
def maxAlternatives : Nat := 4

/-- The weight of a synonym that is registered without one. -/
def defaultWeight : α := 80.0

/-- A mapper over a vocabulary, if the rules are valid. -/
def make (vocabulary : Vocabulary α) (rules : MapRules α) (catalog : Catalog) :
    Except Error (Mapper α) := do
  rules.validate
  return ⟨vocabulary, catalog, rules⟩

/-- The mapper that a project starts with. -/
def standard : Mapper α := ⟨.standard, .standard, .standard⟩

/-- Whether a noun was given that is not the command's own. -/
def nounDiffers (noun : Option String) (command : String) : Bool :=
  match (noun.map Text.trim).filter (!·.isEmpty) with
  | some n => Name.noun command ≠ "" && Name.noun command ≠ n
  | none => false

/-- The candidate that a command makes for a verb and a noun, unless its score is below the
floor. -/
def candidate? (m : Mapper α) (verb : String) (noun : Option String) (g : Group α) :
    Option (Candidate α) :=
  let score := Score.ofVerb m.rules.fuzzy verb g.synonyms
  if score < m.rules.reject then none
  else
    let confidence := if nounDiffers noun g.command then score * nounPenalty else score
    some ⟨g.command, confidence, m.catalog.description? g.command⟩

/-- All candidates for a verb and a noun, best first. -/
def ranking (m : Mapper α) (verb : String) (noun : Option String) : List (Candidate α) :=
  Grade.ranked (·.confidence) (m.vocabulary.groups.filterMap (m.candidate? verb noun))

/-- Map a verb, with the noun that came with it, onto a command. -/
def map (m : Mapper α) (verb : String) (noun : Option String) : Mapping α :=
  let verb := Text.normalize verb
  if verb.isEmpty then .unmatched verb
  else match m.ranking verb noun with
    | [] => .unmatched verb
    | best :: others =>
      { verb
        matched := true
        target := some best.command
        confidence := best.confidence
        targetDescription := best.description
        alternatives := others.take maxAlternatives
        requiresConfirmation := best.confidence < m.rules.direct }

/-- Give a command a synonym. -/
def addSynonym (m : Mapper α) (command synonym : String) (weight : Option α) : Mapper α :=
  { m with vocabulary := m.vocabulary.add command synonym (weight.getD defaultWeight) }

/-- The synonyms of a command, none if it is not listed. -/
def synonymsOf (m : Mapper α) (command : String) : Synonyms α :=
  (m.vocabulary.get? command).getD .empty

end Mapper

end CommandDesk
