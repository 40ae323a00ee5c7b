import CommandDesk.Cli.Edit
import CommandDesk.Cli.View

/-!
# Running calls

What a call does to the files of a project, and what it prints. Only `init` and
the edits write, and an edit that is refused writes nothing.
-/

namespace CommandDesk

namespace Cli

/-- A project: its folder, and how it is shown. -/
structure Place where
  path : Path
  shown : String

/-- What a call comes to: the files after it, what it prints, and why it fails, if it does. -/
structure Report where
  files : Files
  output : String := ""
  refusal : Option Refusal := none

/-- A call is done, or goes on as a session. -/
inductive Outcome where
  | done (r : Report)
  | session (s : Session Float)

/-- The project of a call: the one that is named, else the one that `here` belongs to. -/
def Place.ofCall (fs : Files) (here : Path) (named : Option String) : Place :=
  match named with
  | some s => ⟨here.resolve s, s⟩
  | none =>
    let root := Project.rootOf fs here
    ⟨root, root.text⟩

/-- The name of something inside a project. -/
def Place.showInside (p : Place) (name : String) : String :=
  if p.shown.toList.getLast? = some '/' then p.shown ++ name else p.shown ++ "/" ++ name

/-- Make a configuration where there is none. -/
def runInit (fs : Files) (p : Place) : Report :=
  let begun := "Initializing slashdash in: " ++ p.shown ++ "\n"
  match fs.makeFolders (Project.folder p.path) with
  | .error _ => ⟨fs, begun, some (.noFolder (p.showInside Project.folderName))⟩
  | .ok fs => match Project.saveIfMissing fs p.path .standard with
    | .error e => ⟨fs, begun, some (.creating e)⟩
    | .ok (fs, true) => ⟨fs, begun ++ "  created: " ++ Project.configName ++ "\n", none⟩
    | .ok (fs, false) => ⟨fs, begun ++ "  exists:  " ++ Project.configName ++ "\n", none⟩

/-- Change the configuration of a project. -/
def runEdit (fs : Files) (p : Place) (e : Edit) : Report :=
  match e.run (Project.load fs p.path) with
  | .error r => ⟨fs, "", some r⟩
  | .ok (c, text) => match Project.save fs p.path c with
    | .error e => ⟨fs, "", some (.saving e)⟩
    | .ok fs => ⟨fs, text, none⟩

/-- Begin a session. -/
def beginSession (fs : Files) (p : Place) : Except Refusal (Session Float) := do
  let c ← refuse .loading (Project.orStandard (Project.load fs p.path))
  return .start (← refuse .badConfig c.desk)

/-- Run an action in a project. -/
def Action.run (json : Bool) (input : String) (fs : Files) (p : Place) : Action → Outcome
  | .init => .done (runInit fs p)
  | .view v =>
    let (output, refusal) := v.answer json input (Project.load fs p.path)
    .done ⟨fs, output, refusal⟩
  | .edit e => .done (runEdit fs p e)
  | .session => match beginSession fs p with
    | .ok s => .session s
    | .error r => .done ⟨fs, "", some r⟩

/-- Run a call at a place; `named` is the project that counts where the call names none. -/
def Call.run (c : Call) (named : Option String) (here : Path) (input : String) (fs : Files) :
    Outcome :=
  c.action.run c.json input fs (.ofCall fs here (c.root.or named))

/-- The line that tells why a call fails. -/
def Refusal.line (r : Refusal) : String := "error: " ++ r.message

end Cli

end CommandDesk
