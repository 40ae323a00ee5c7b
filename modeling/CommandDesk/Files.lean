import CommandDesk.Error
import CommandDesk.Text.Cut

/-!
# Files

A tree of folders and text files. A path is a list of names from the root; the
root itself is a folder. What is written has folders above it.
-/

namespace CommandDesk

/-- The names that lead from the root to a file or folder. -/
abbrev Path := List String

namespace Path

/-- The path as text. -/
def text (p : Path) : String := "/" ++ "/".intercalate p

/-- Go one name further: a dot stays, and two dots go up. -/
def go (p : Path) (name : String) : Path :=
  if name = "" || name = "." then p else if name = ".." then p.dropLast else p ++ [name]

/-- The path that a text stands for at a place. A text that begins with a slash starts at the
root. -/
def resolve (here : Path) (s : String) : Path :=
  let start := if s.toList.head? = some '/' then [] else here
  ((Text.pieces '/' s.toList).map String.ofList).foldl go start

/-- The path and the folders above it, the innermost first. -/
def upward (p : Path) : List Path :=
  (List.range (p.length + 1)).map fun n => p.take (p.length - n)

end Path

/-- What stands under a path. -/
inductive Item where
  | folder
  | file (text : String)
  deriving DecidableEq

/-- A tree of files and folders. -/
structure Files where
  /-- What stands under each path but the root, in the order in which it came. -/
  items : List (Path × Item)

namespace Files

/-- The tree without files and folders. -/
def empty : Files := ⟨[]⟩

/-- What stands under a path. -/
def get? (fs : Files) (p : Path) : Option Item :=
  if p.isEmpty then some .folder else (fs.items.find? (·.1 = p)).map (·.2)

/-- Whether anything stands under a path. -/
def contains (fs : Files) (p : Path) : Bool := (fs.get? p).isSome

/-- Whether a path is a folder. -/
def isFolder (fs : Files) (p : Path) : Bool := fs.get? p = some .folder

/-- The text of a file. -/
def text? (fs : Files) (p : Path) : Option String :=
  match fs.get? p with
  | some (.file t) => some t
  | _ => none

/-- Put something under a path. -/
def setItem (p : Path) (i : Item) : List (Path × Item) → List (Path × Item)
  | [] => [(p, i)]
  | e :: es => if e.1 = p then (p, i) :: es else e :: setItem p i es

/-- Put something under a path. -/
def set (fs : Files) (p : Path) (i : Item) : Files := ⟨setItem p i fs.items⟩

/-- Whether a name can be given to a file. -/
def isName (s : String) : Bool := !s.toList.contains '\x00' && s.utf8ByteSize ≤ 255

/-- Make a folder, under one that is there. A file in its place is in the way. -/
def makeFolder (fs : Files) (p : Path) : Except Error Files :=
  match fs.get? p with
  | some .folder => .ok fs
  | some (.file _) => .error (.fileAccess p.text)
  | none => if p.getLast?.all isName then .ok (fs.set p .folder) else .error (.fileAccess p.text)

/-- Make a folder and those above it. -/
def makeFolders (fs : Files) (p : Path) : Except Error Files :=
  p.upward.reverse.foldlM makeFolder fs

/-- Write a file, and make the folders above it. A folder in its place is in the way. -/
def write (fs : Files) (p : Path) (t : String) : Except Error Files := do
  let fs ← fs.makeFolders p.dropLast
  if fs.isFolder p || !p.getLast?.all isName then throw (.fileAccess p.text)
  return fs.set p (.file t)

/-- Write a file unless something stands in its place, and whether it was written. -/
def writeIfMissing (fs : Files) (p : Path) (t : String) : Except Error (Files × Bool) :=
  if fs.contains p then .ok (fs, false) else (fs.write p t).map (·, true)

/-- The names in a folder, in order. -/
def names (fs : Files) (p : Path) : Except Error (List String) :=
  if fs.isFolder p then
    let inside := fs.items.filterMap fun e => if e.1.dropLast = p then e.1.getLast? else none
    .ok (inside.mergeSort fun a b => a ≤ b)
  else .error (.fileAccess p.text)

end Files

end CommandDesk
