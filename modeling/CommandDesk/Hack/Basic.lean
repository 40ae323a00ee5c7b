import CommandDesk.Decimal.Notation
import CommandDesk.Error
import CommandDesk.Node.Codec
import CommandDesk.Text.Blank
import CommandDesk.Text.Cut

/-!
# Prompt hacks

A hack is a postscript for prompts that improves the answers. It belongs to a
milestone of progress and can be switched on and off. A preset is a named
selection of hacks to be switched on.
-/

namespace CommandDesk

/-- A postscript for prompts. -/
structure Hack where
  id : String
  name : String
  /-- The percentage of progress at which the hack is due. -/
  milestone : UInt32
  postscript : String
  enabled : Bool := true
  useWhen : List String := []
  /-- What to say when the postscript asks for something impossible. -/
  fallback : Option String := none
  enhanced : Option String := none
  deriving DecidableEq, BEq

namespace Hack

/-- The postscript, with the enhancement behind it if it is asked for and there is one. -/
def text (h : Hack) (enhanced : Bool) : String :=
  match h.enhanced with
  | some extra =>
    if enhanced then Text.trim h.postscript ++ "\n\n" ++ Text.trim extra
    else Text.trim h.postscript
  | none => Text.trim h.postscript

/-- A line for a list of hacks. -/
def line (h : Hack) : String :=
  let percent := Decimal.natText h.milestone.toNat
  let padded := Text.spaces (3 - percent.length) ++ percent
  "[" ++ (if h.enabled then "x" else " ") ++ "] " ++ String.ofList padded ++ "% " ++ h.name

instance : Encode Hack where
  encode h := .ofFields
    [field "id" h.id, field "name" h.name, field "milestone" h.milestone,
      field "postscript" h.postscript, field "enabled" h.enabled,
      fieldIfAny "use_when" h.useWhen, fieldIfSome "fallback" h.fallback,
      fieldIfSome "enhanced" h.enhanced]

instance : Decode Hack where
  decode? n := do
    let r ← Record.read? ["id", "name", "milestone", "postscript", "enabled", "use_when",
      "fallback", "enhanced"] n
    some
      { id := ← r.required? "id"
        name := ← r.required? "name"
        milestone := ← r.required? "milestone"
        postscript := ← r.required? "postscript"
        enabled := ← r.defaulted? "enabled" true
        useWhen := ← r.defaulted? "use_when" []
        fallback := ← r.defaulted? "fallback" none
        enhanced := ← r.defaulted? "enhanced" none }

end Hack

/-- A named selection of hacks. -/
structure Preset where
  id : String
  name : String
  description : String
  enabledHacks : List String
  deriving DecidableEq

namespace Preset

/-- Switch on exactly the hacks of the selection. -/
def apply (p : Preset) (h : Hack) : Hack := { h with enabled := p.enabledHacks.contains h.id }

/-- All presets. -/
def all : List Preset := [
  ⟨"recommended", "Recommended", "Balance quality and speed",
    ["clarify", "web_backed", "self_grade", "devils_advocate"]⟩,
  ⟨"all", "All", "Enable all five hacks",
    ["clarify", "web_backed", "self_grade", "expert_panel", "devils_advocate"]⟩,
  ⟨"analysis", "Analysis", "For data analysis tasks", ["clarify", "self_grade"]⟩,
  ⟨"research", "Research", "Latest information and multiple perspectives",
    ["web_backed", "expert_panel", "devils_advocate"]⟩,
  ⟨"writing", "Writing", "High quality output", ["self_grade", "devils_advocate"]⟩,
  ⟨"minimal", "Minimal", "Only clarify", ["clarify"]⟩,
  ⟨"none", "None", "No hacks enabled", []⟩]

/-- The preset of an id. -/
def find? (id : String) : Option Preset := all.find? (·.id = id)

instance : Encode Preset where
  encode p := .ofFields
    [field "id" p.id, field "name" p.name, field "description" p.description,
      field "enabled_hacks" p.enabledHacks]

end Preset

/-- The hacks that can be used, in order. -/
structure HackSet where
  hacks : List Hack
  deriving DecidableEq, BEq

namespace HackSet

/-- The hack of an id. -/
def get? (s : HackSet) (id : String) : Option Hack := s.hacks.find? (·.id = id)

/-- The first enabled hack of a milestone. -/
def atMilestone? (s : HackSet) (milestone : UInt32) : Option Hack :=
  s.hacks.find? fun h => h.milestone = milestone && h.enabled

/-- The enabled hacks. -/
def enabled (s : HackSet) : List Hack := s.hacks.filter (·.enabled)

/-- Whether the hack of an id is there and enabled. -/
def isEnabled (s : HackSet) (id : String) : Bool := (s.get? id).any (·.enabled)

/-- Switch the first hack of an id. -/
def switchFirst (id : String) (enabled : Bool) : List Hack → List Hack
  | [] => []
  | h :: hs =>
    if h.id = id then { h with enabled } :: hs else h :: switchFirst id enabled hs

/-- Switch a hack on or off. -/
def setEnabled (s : HackSet) (id : String) (enabled : Bool) : Except Error HackSet :=
  if (s.get? id).isSome then .ok ⟨switchFirst id enabled s.hacks⟩ else .error (.unknownHack id)

/-- Switch on exactly the hacks of a preset. -/
def applyPreset (s : HackSet) (p : Preset) : HackSet := ⟨s.hacks.map p.apply⟩

instance : Encode HackSet := ⟨fun s => encode s.hacks⟩

instance : Decode HackSet := ⟨fun n => (decode? n).map HackSet.mk⟩

end HackSet

end CommandDesk
