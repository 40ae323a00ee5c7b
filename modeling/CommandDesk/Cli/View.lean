import CommandDesk.Cli.Signals
import CommandDesk.Cli.Table
import CommandDesk.Config.Validation
import CommandDesk.Node.JsonPrinter
import CommandDesk.Node.Sorted
import CommandDesk.Project
import CommandDesk.Session.Basic

/-!
# Views

What a person sees of a project. A view depends on the configuration and on the
text that is typed in, and changes nothing.
-/

namespace CommandDesk

namespace Cli

/-- Lines, each with its line break. -/
def unlines (lines : List String) : String := String.join (lines.map (· ++ "\n"))

/-- A value as an indented document. -/
def document {β : Type} [Encode β] (b : β) : String := Json.pretty (encode b) ++ "\n"

/-- Named values as an indented document with sorted keys. -/
def sortedDocument (n : Node) : String := Json.pretty n.sorted ++ "\n"

/-- A grade as a percentage. -/
def percent (x : Float) : String := Grade.fixed 1 x ++ "%"

/-- What a view answers: a text, or a refusal. -/
abbrev Shown := Except Refusal String

/-! ## Mapping -/

/-- The table of alternatives. -/
def alternativeLines (cs : List (Candidate Float)) : List String :=
  if cs.isEmpty then []
  else "" :: tableLines ["ALTERNATIVE", "CONFIDENCE", "DESCRIPTION"]
    (cs.map fun c => ["/" ++ c.command, Grade.fixed 1 c.confidence, c.description.getD ""])

/-- How a verb is mapped. -/
def mappingLines (m : Mapping Float) : List String :=
  match m.target with
  | none => ["No command matches '" ++ m.verb ++ "'."]
  | some target =>
    let verdict := if m.requiresConfirmation then "needs confirmation" else "direct"
    (m.verb ++ " -> /" ++ target ++ " (" ++ percent m.confidence ++ ", " ++ verdict ++ ")")
      :: (m.targetDescription.map ("  " ++ ·)).toList ++ alternativeLines m.alternatives

/-- Map a verb. -/
def showMapping (json : Bool) (c : Config) (verb : String) (noun : Option String) : Shown := do
  let mapper ← refuse .badMapping c.mapper
  let m := mapper.map verb noun
  return if json then document m else unlines (mappingLines m)

/-! ## Checking -/

/-- What came of a check. -/
structure Checked where
  command : Command
  mapping : Option (Mapping Float)
  response : Confirmation Float
  prompt : Option String := none
  appliedHacks : List String := []

instance : Encode Checked where
  encode c := .ofFields
    [field "command" c.command.text, fieldIfSome "mapping" c.mapping, field "response" c.response,
      fieldIfSome "prompt" c.prompt, fieldIfAny "applied_hacks" c.appliedHacks]

/-- Check a command, and inject hacks where a prompt is given. -/
def checked (d : Desk Float) (s : Signals) (reply prompt : Option String) :
    Except Refusal Checked := do
  let (command, mapping, context) ← s.resolve d
  let c : Checked := match prompt with
    | some text =>
      let o := (d.enhance ⟨0, 0⟩ command text context).2
      ⟨command, mapping, o.response, some o.prompt, o.appliedHacks⟩
    | none => ⟨command, mapping, d.protocol.check command context, none, []⟩
  match reply with
  | some r =>
    if c.response.triggered then return { c with response := c.response.apply (.text r) }
    else return c
  | none => return c

/-- The line for a verb that was mapped onto another command than the typed one. -/
def targetLines (typed : Command) (m : Option (Mapping Float)) : List String :=
  match m with
  | some m => match m.target with
    | some target => if target = typed.name then [] else [Session.mappedLine m target]
    | none => []
  | none => []

/-- What came of a check, in words. -/
def checkLines (typed : Command) (c : Checked) (replied : Bool) : List String :=
  let response :=
    if !c.response.triggered then ["No confirmation needed: `" ++ c.command.text ++ "`"]
    else c.response.prompt :: if replied then "" :: c.response.outcomeLines else []
  let prompt := match c.prompt with
    | some text =>
      let hacks := if c.appliedHacks.isEmpty then []
        else ["Applied hacks: " ++ ", ".intercalate c.appliedHacks]
      "" :: hacks ++ [text]
    | none => []
  targetLines typed c.mapping ++ response ++ prompt

/-- Check a command. -/
def showCheck (json : Bool) (c : Config) (s : Signals) (reply prompt : Option String) : Shown := do
  let d ← refuse .badConfig c.desk
  let k ← checked d s reply prompt
  if json then return document k
  else return unlines (checkLines (← s.commandOf) k reply.isSome)

/-! ## Triggers -/

/-- The evidence of a trigger in words. -/
def evidenceText : Evidence Float → String
  | .none => ""
  | .highRisk _ _ reason => reason
  | .ambiguousVerb verb confidence threshold candidates =>
    "'" ++ verb ++ "' at " ++ percent confidence ++ " (threshold " ++ Grade.fixed 1 threshold
      ++ "), " ++ Decimal.natString candidates.length ++ " candidate(s)"
  | .inputError failure input => match input with
    | some i => failure.message ++ " (" ++ i ++ ")"
    | none => failure.message
  | .previousError failure recoveries =>
    failure.message ++ " (" ++ Decimal.natString recoveries.length ++ " recovery option(s))"
  | .largeTask tokens steps _ cause =>
    Decimal.natString tokens.toNat ++ " tokens, " ++ Decimal.natString steps.toNat
      ++ " steps (by " ++ word cause ++ ")"
  | .missingRequired params => "missing: " ++ ", ".intercalate params

/-- The triggers that a command fires. -/
def triggerLines (command : Command) (fired : List (Trigger Float)) (highest : Trigger Float) :
    List String :=
  if fired.isEmpty then ["No triggers fired for `" ++ command.text ++ "`."]
  else
    ["Triggers for `" ++ command.text ++ "`:", ""]
      ++ tableLines ["TRIGGER", "SEVERITY", "DETAILS"]
        (fired.map fun t =>
          [word t.kind, Decimal.natString t.severity.toNat, evidenceText t.evidence])
      ++ ["", "Highest priority: " ++ word highest.kind ++ " (severity "
        ++ Decimal.natString highest.severity.toNat ++ ")"]

/-- List the triggers of a command. -/
def showTriggers (json : Bool) (c : Config) (s : Signals) : Shown := do
  let d ← refuse .badConfig c.desk
  let (command, _, context) ← s.resolve d
  let fired := d.protocol.limits.checkAll command context
  let highest := d.protocol.limits.mostSevere command context
  if json then
    return sortedDocument (.ofFields
      [field "command" command.text, field "triggers" fired, field "highest" highest])
  else return unlines (triggerLines command fired highest)

/-! ## Synonyms -/

/-- The rows of the synonyms of a command, the weightiest first. -/
def synonymRows (g : String × Synonyms Float) : List (List String) :=
  (Grade.ranked (·.2) g.2.entries).map fun (synonym, weight) => [g.1, synonym, Grade.fixed 0 weight]

/-- List the synonyms of all commands, or of one. -/
def showSynonyms (json : Bool) (c : Config) (command : Option String) : Shown := do
  let v := c.vocabulary
  match command with
  | some name => if !v.contains name then throw (.plain (.unknownCommand name))
  | none => pure ()
  let groups := v.toList.filter fun g => command.all (· = g.1)
  if json then
    return document (groups.map fun g =>
      Node.ofFields [field "command" g.1, field "synonyms" g.2])
  else return unlines (tableLines ["COMMAND", "ALIAS", "WEIGHT"] (groups.flatMap synonymRows))

/-- Show which commands have a synonym. -/
def showSynonym (json : Bool) (c : Config) (synonym : String) : String :=
  let found := c.vocabulary.withSynonym synonym
  if json then
    document (found.map fun f => Node.ofFields [field "command" f.1, field "weight" f.2])
  else if found.isEmpty then unlines ["No command has the synonym '" ++ synonym ++ "'."]
  else unlines (tableLines ["COMMAND", "WEIGHT"] (found.map fun f => [f.1, Grade.fixed 0 f.2]))

/-! ## Hacks -/

/-- List the hacks. -/
def showHacks (json : Bool) (c : Config) : Shown := do
  let hacks ← refuse .badHacks c.hackSet
  if json then return document hacks.hacks
  else
    return unlines (tableLines ["ID", "NAME", "MILESTONE", "ENABLED"]
      (hacks.hacks.map fun h =>
        [h.id, h.name, Decimal.natString h.milestone.toNat ++ "%",
          if h.enabled then "yes" else "no"]))

/-- The hack of an id. -/
def hackOf (c : Config) (id : String) : Except Refusal Hack := do
  let hacks ← refuse .badHacks c.hackSet
  match hacks.get? id with
  | some h => return h
  | none => throw (.plain (.unknownHack id))

/-- Show a hack. -/
def showHack (json : Bool) (c : Config) (id : String) : Shown := do
  let h ← hackOf c id
  return if json then document h else h.preview

/-- The table of presets, with a star at the chosen one. -/
def presetLines (c : Config) : List String :=
  tableLines ["PRESET", "DESCRIPTION", "HACKS"]
    (Preset.all.map fun p =>
      [p.id ++ (if p.id = c.hacks.preset then "*" else ""), p.description,
        ", ".intercalate p.enabledHacks])

/-- Inject a hack into a prompt, which is what was typed in where none is given. -/
def showInjection (json : Bool) (input : String) (c : Config) (id : String)
    (prompt : Option String) (o : InjectOptions) : Shown := do
  let h ← hackOf c id
  let prompt := prompt.getD (String.ofList (Text.trimBack input.toList))
  let i := Injection.inject prompt h o
  return if json then document i else i.injected ++ "\n"

/-! ## Configuration -/

/-- A remark on a configuration. -/
def remarkLine (r : Remark) : String := "[" ++ word r.level ++ "] " ++ r.message

/-- The remarks on a configuration. -/
def showValidation (json : Bool) (c : Config) : String :=
  let remarks := c.validate
  if json then sortedDocument (.ofFields [field "warnings" remarks])
  else if remarks.isEmpty then unlines ["Config is valid. No warnings."]
  else unlines (remarks.map remarkLine)

/-! ## Answers -/

/-- Whether a configuration has errors. -/
def hasErrors (c : Config) : Bool := c.validate.any fun r => r.level = .error

/-- The answer of a view, given the configuration that was loaded, and a refusal where it ends
with one. A view of the presets as a document needs no configuration. -/
def View.answer (json : Bool) (input : String) (loaded : Except Error Config) (v : View) :
    String × Option Refusal :=
  let config : Except Refusal Config := refuse .loading (Project.orStandard loaded)
  let shown (r : Shown) : String × Option Refusal :=
    match r with
    | .ok text => (text, none)
    | .error e => ("", some e)
  match v with
  | .map verb noun => shown (do showMapping json (← config) verb noun)
  | .check s reply prompt => shown (do showCheck json (← config) s reply prompt)
  | .triggers s => shown (do showTriggers json (← config) s)
  | .synonymsOf command => shown (do showSynonyms json (← config) command)
  | .commandsFor synonym => shown (config.map fun c => showSynonym json c synonym)
  | .hacks => shown (do showHacks json (← config))
  | .hack id => shown (do showHack json (← config) id)
  | .presets =>
    if json then (document Preset.all, none)
    else shown (config.map fun c => unlines (presetLines c))
  | .inject id prompt style position enhanced =>
    shown (do
      let c ← config
      let o : InjectOptions :=
        { style := style.getD c.injection.style
          position := position.getD c.injection.position
          enhanced := enhanced || c.injection.enhanced }
      showInjection json input c id prompt o)
  | .config => shown (config.map fun c => if json then document c else c.print)
  | .validation =>
    match loaded with
    | .error e => ("", some (.loading e))
    | .ok c => (showValidation json c, if hasErrors c then some .invalidConfig else none)

/-- Whether a view reads what is typed in. -/
def View.readsInput : View → Bool
  | .inject _ none _ _ _ => true
  | _ => false

end Cli

end CommandDesk
