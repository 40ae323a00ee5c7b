import CommandDesk.Error

/-!
# Refusals

Why a call of the command line fails, with the wording.
-/

namespace CommandDesk

namespace Cli

/-- Why a call fails. -/
inductive Refusal where
  /-- The reason stands for itself. -/
  | plain (e : Error)
  | loading (e : Error)
  | saving (e : Error)
  | creating (e : Error)
  | noFolder (shown : String)
  | badMapping (e : Error)
  | badConfig (e : Error)
  | badHacks (e : Error)
  | adding (synonym command : String) (e : Error)
  | noSuchSynonym (synonym command : String)
  | noCommandName
  | badParam (typed : String)
  | invalidConfig
  deriving DecidableEq

/-- The wording. -/
def Refusal.message : Refusal → String
  | plain e => e.message
  | loading e => "failed to load config: " ++ e.message
  | saving e => "failed to save config: " ++ e.message
  | creating e => "failed to write config.yaml: " ++ e.message
  | noFolder shown => "failed to create " ++ shown ++ ": something is in the way"
  | badMapping e => "invalid mapping config: " ++ e.message
  | badConfig e => "invalid config: " ++ e.message
  | badHacks e => "invalid hacks config: " ++ e.message
  | adding synonym command e =>
    "cannot add '" ++ synonym ++ "' to " ++ command ++ ": " ++ e.message
  | noSuchSynonym synonym command => "'" ++ synonym ++ "' is not a synonym of " ++ command
  | noCommandName => "command name must not be empty"
  | badParam typed => "invalid parameter '" ++ typed ++ "': expected key=value"
  | invalidConfig => "config validation found errors"

/-- Give an error a refusal around it. -/
def refuse {β : Type} (f : Error → Refusal) : Except Error β → Except Refusal β
  | .ok b => .ok b
  | .error e => .error (f e)

end Cli

end CommandDesk
