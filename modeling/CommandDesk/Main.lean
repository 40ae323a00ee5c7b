import CommandDesk.Cli.Run
import Std.Time.DateTime.Timestamp

/-!
# The program

Reads what a call looks at from disk, runs the call, and writes back what it
changed.
-/

namespace CommandDesk

namespace Main

/-- Whether a folder stands on disk under a path. -/
def isFolder (p : Path) : IO Bool := do return ← ((← IO.currentDir) / p.text).isDir

/-- Stands for a file that holds no text. No configuration can be read from it. -/
def unreadable : String := "\x00"

/-- Add what stands on disk under a path. -/
def readItem (fs : Files) (p : Path) : IO Files := do
  if ← isFolder p then return fs.set p .folder
  else if ← ((← IO.currentDir) / p.text).pathExists then
    try
      let text ← IO.FS.readFile p.text
      return fs.set p (.file text)
    catch _ => return fs.set p (.file unreadable)
  else return fs

/-- The paths that a call may look at in a project. -/
def pathsIn (root : Path) : List Path :=
  root.upward ++ [Project.folder root, root ++ [Project.repositoryName], Project.configPath root]

/-- Write the configuration back where it changed. The new text is in place at once. -/
def writeBack (before after : Files) (root : Path) : IO Unit := do
  if after.isFolder (Project.folder root) then IO.FS.createDirAll (Project.folder root).text
  let path := Project.configPath root
  if after.text? path ≠ before.text? path then
    let draft := path.text ++ ".new"
    IO.FS.writeFile draft ((after.text? path).getD "")
    IO.FS.rename draft path.text

/-- The stamp of the moment. -/
def stamp : IO Stamp := do
  let serial ← IO.rand 0 (Snapshot.serialLimit - 1)
  let now ← Std.Time.Timestamp.now
  return ⟨serial.toUInt64, now.toSecondsSinceUnixEpoch.val⟩

/-- Print and flush. -/
def say (text : String) : IO Unit := do
  let out ← IO.getStdout
  out.putStr text
  out.flush

/-- Take lines until the session is left or the input ends. -/
partial def converse (s : Session Float) : IO Unit := do
  let line ← (← IO.getStdin).getLine
  if line.isEmpty then say s.farewell
  else
    let t := s.turn (← stamp) line
    say t.text
    if !t.leaves then converse t.session

/-- All that is typed in. -/
partial def readAll (stdin : IO.FS.Stream) (acc : String) : IO String := do
  let line ← stdin.getLine
  if line.isEmpty then return acc else readAll stdin (acc ++ line)

/-- Whether a call reads what is typed in. -/
def readsInput (c : Cli.Call) : Bool :=
  match c.action with
  | .view v => v.readsInput
  | _ => false

/-- Run a call. What is typed in is asked for once nothing else is in the way. -/
def run (c : Cli.Call) : IO UInt32 := do
  let here := Path.resolve [] (← IO.currentDir).toString
  let named ← IO.getEnv "SLASHDASH_ROOT"
  let roots := match c.root.or named with
    | some s => [here.resolve s]
    | none => here.upward
  let fs ← (roots.flatMap pathsIn).foldlM readItem .empty
  match c.run named here "" fs with
  | .session s => do
    say Session.greeting
    converse s
    return 0
  | .done r => do
    let r ←
      if r.refusal.isNone && readsInput c then do
        match c.run named here (← readAll (← IO.getStdin) "") fs with
        | .done r => pure r
        | .session _ => pure r
      else pure r
    let place := Cli.Place.ofCall fs here (c.root.or named)
    writeBack fs r.files place.path
    say r.output
    match r.refusal with
    | some e => do
      IO.eprintln e.line
      return 1
    | none => return 0

end Main

end CommandDesk

/-- Run the command line. -/
def main (args : List String) : IO UInt32 :=
  match CommandDesk.Cli.Call.ofArguments? args with
  | some c => CommandDesk.Main.run c
  | none => do
    IO.eprintln "usage: slashdash [--root PATH] [--json] COMMAND [ARGUMENTS]"
    return 2
