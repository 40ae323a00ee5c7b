import CommandDesk.Cli.Words
import CommandDesk.Command.InputRef
import CommandDesk.Decimal.Reader
import CommandDesk.Hack.Injection

/-!
# Calls

What a command line asks for. Commands that only look at the project are views;
those that change its configuration are edits.
-/

namespace CommandDesk

namespace Cli

/-- A command with the signals around it, as they are given on a command line. -/
structure Signals where
  command : String
  input : Option InputRef
  params : List String
  confidence : Option Float
  tokens : Option UInt64
  steps : Option UInt32
  workflowSteps : List String
  inputError : Option String
  previousError : Option String
  recoveries : List String
  recent : List String
  progress : Option UInt32
  /-- Whether the command is taken as it is, without mapping its verb. -/
  unmapped : Bool

/-- What a person wants to see. -/
inductive View where
  | map (verb : String) (noun : Option String)
  | check (signals : Signals) (reply prompt : Option String)
  | triggers (signals : Signals)
  | synonymsOf (command : Option String)
  | commandsFor (synonym : String)
  | hacks
  | hack (id : String)
  | presets
  | inject (id : String) (prompt : Option String) (style : Option Style)
      (position : Option Position) (enhanced : Bool)
  | config
  | validation

/-- What a person wants to change. -/
inductive Edit where
  | addSynonym (command synonym : String) (weight : Float)
  | removeSynonym (command synonym : String)
  | choosePreset (id : String)
  | switchHack (id : String) (enabled : Bool)

/-- What a command line asks for. -/
inductive Action where
  | init
  | view (v : View)
  | edit (e : Edit)
  | session

/-- A command line. -/
structure Call where
  /-- The project that is named. -/
  root : Option String
  json : Bool
  action : Action

/-- The options of a command with signals. -/
def signalOptions : List OptionForm :=
  [⟨"input", .single, none⟩, ⟨"param", .repeated, none⟩, ⟨"confidence", .single, none⟩,
    ⟨"tokens", .single, none⟩, ⟨"steps", .single, none⟩, ⟨"workflow-step", .repeated, none⟩,
    ⟨"input-error", .single, none⟩, ⟨"previous-error", .single, none⟩,
    ⟨"recovery", .repeated, none⟩, ⟨"recent", .repeated, none⟩, ⟨"progress", .single, none⟩,
    ⟨"no-map", .switch, none⟩]

/-- The grammar of the command line. -/
def grammar : Grammar where
  common := [⟨"root", .single, none⟩, ⟨"json", .switch, some 'j'⟩]
  forms :=
    [{ path := ["init"] },
      { path := ["map"], required := 1, options := [⟨"noun", .single, none⟩] },
      { path := ["check"], required := 1
        options := signalOptions ++ [⟨"reply", .single, none⟩, ⟨"prompt", .single, none⟩] },
      { path := ["triggers"], required := 1, options := signalOptions },
      { path := ["synonym", "list"], optional := 1 },
      { path := ["synonym", "add"], required := 2, options := [⟨"weight", .single, none⟩] },
      { path := ["synonym", "remove"], required := 2 },
      { path := ["synonym", "find"], required := 1 },
      { path := ["hacks", "list"] },
      { path := ["hacks", "show"], required := 1 },
      { path := ["hacks", "presets"] },
      { path := ["hacks", "apply-preset"], required := 1 },
      { path := ["hacks", "enable"], required := 1 },
      { path := ["hacks", "disable"], required := 1 },
      { path := ["hacks", "inject"], required := 1
        options := [⟨"prompt", .single, none⟩, ⟨"style", .single, none⟩,
          ⟨"position", .single, none⟩, ⟨"enhanced", .switch, none⟩] },
      { path := ["config", "show"] },
      { path := ["config", "validate"] },
      { path := ["session"] }]

/-! ## Values of options -/

/-- A number. -/
def number? (s : String) : Option Float := Decimal.float? s.toList

/-- A word of 64 bits. -/
def word64? (s : String) : Option UInt64 :=
  (Decimal.int? 0 (UInt64.size - 1 : Nat) s.toList).map fun i => UInt64.ofNat i.toNat

/-- A word of 32 bits. Minus zero is zero. -/
def word32? (s : String) : Option UInt32 :=
  match Decimal.int? Int64.minValue.toInt Int64.maxValue.toInt s.toList with
  | some i => if 0 ≤ i && i < UInt32.size then some (UInt32.ofNat i.toNat) else none
  | none => none

/-- The value of an option that may be missing, but must be right when it is given. -/
def Words.read? {β : Type} (w : Words) (name : String) (f : String → Option β) :
    Option (Option β) :=
  match w.value? name with
  | none => some none
  | some s => (f s).map some

/-- A command with its signals. -/
def signals? (w : Words) (command : String) : Option Signals := do
  some
    { command
      input := ← w.read? "input" InputRef.parse?
      params := w.values "param"
      confidence := ← w.read? "confidence" number?
      tokens := ← w.read? "tokens" word64?
      steps := ← w.read? "steps" word32?
      workflowSteps := w.values "workflow-step"
      inputError := w.value? "input-error"
      previousError := w.value? "previous-error"
      recoveries := w.values "recovery"
      recent := w.values "recent"
      progress := ← w.read? "progress" word32?
      unmapped := w.has "no-map" }

/-- The weight of a synonym that is added without one. -/
def standardWeight : Float := 80.0

/-- What the words ask for. -/
def action? (w : Words) : Option Action :=
  match w.path, w.arguments with
  | ["init"], _ => some .init
  | ["session"], _ => some .session
  | ["map"], [verb] => some (.view (.map verb (w.value? "noun")))
  | ["check"], [command] => do
    some (.view (.check (← signals? w command) (w.value? "reply") (w.value? "prompt")))
  | ["triggers"], [command] => do some (.view (.triggers (← signals? w command)))
  | ["synonym", "list"], args => some (.view (.synonymsOf args.head?))
  | ["synonym", "add"], [command, synonym] => do
    let weight ← w.read? "weight" number?
    some (.edit (.addSynonym command synonym (weight.getD standardWeight)))
  | ["synonym", "remove"], [command, synonym] => some (.edit (.removeSynonym command synonym))
  | ["synonym", "find"], [synonym] => some (.view (.commandsFor synonym))
  | ["hacks", "list"], _ => some (.view .hacks)
  | ["hacks", "show"], [id] => some (.view (.hack id))
  | ["hacks", "presets"], _ => some (.view .presets)
  | ["hacks", "apply-preset"], [id] => some (.edit (.choosePreset id))
  | ["hacks", "enable"], [id] => some (.edit (.switchHack id true))
  | ["hacks", "disable"], [id] => some (.edit (.switchHack id false))
  | ["hacks", "inject"], [id] => do
    let style ← w.read? "style" fun s => (Style.parse s).toOption
    let position ← w.read? "position" fun s => (Position.parse s).toOption
    some (.view (.inject id (w.value? "prompt") style position (w.has "enhanced")))
  | ["config", "show"], _ => some (.view .config)
  | ["config", "validate"], _ => some (.view .validation)
  | _, _ => none

/-- Read a command line. The name of a project must not be empty. -/
def Call.ofArguments? (args : List String) : Option Call := do
  let w ← grammar.read args
  if (w.values "root").any (·.isEmpty) then none
  else some ⟨w.value? "root", w.has "json", ← action? w⟩

end Cli

end CommandDesk
