import CommandDesk.Cli.Call
import CommandDesk.Cli.Refusal
import CommandDesk.Config.Basic

/-!
# Edits

Changes of a configuration from the command line, with what is said about them.
-/

namespace CommandDesk

namespace Cli

/-- What is said of a preset that was chosen. -/
def chosenText (p : Preset) : String :=
  "Applied preset '" ++ p.id ++ "' (" ++ p.name ++ ").\n"
    ++ (if p.enabledHacks.isEmpty then "  all hacks disabled\n"
      else "  enabled: " ++ ", ".intercalate p.enabledHacks ++ "\n")

/-- Change the configuration that was loaded. What names a preset or a hack is looked up before the
configuration is asked for. -/
def Edit.run (loaded : Except Error Config) : Edit → Except Refusal (Config × String)
  | .addSynonym command synonym weight => do
    let c ← refuse .loading loaded
    let c ← refuse (.adding synonym command) (c.addSynonym command synonym weight)
    return (c, "Added synonym '" ++ Text.normalize synonym ++ "' -> /" ++ command ++ ".\n")
  | .removeSynonym command synonym => do
    let c ← refuse .loading loaded
    let (c, removed) ← refuse .plain (c.removeSynonym command synonym)
    if !removed then throw (.noSuchSynonym synonym command)
    return (c, "Removed synonym '" ++ synonym ++ "' from /" ++ command ++ ".\n")
  | .choosePreset id =>
    match Preset.find? id with
    | none => .error (.plain (.unknownPreset id))
    | some p => do
      let c ← refuse .loading loaded
      return (c.choosePreset p, chosenText p)
  | .switchHack id enabled =>
    if (HackSet.standard.get? id).isNone then .error (.plain (.unknownHack id))
    else do
      let c ← refuse .loading loaded
      return (c.switchHack id enabled,
        (if enabled then "Enabled" else "Disabled") ++ " hack '" ++ id ++ "'.\n")

end Cli

end CommandDesk
