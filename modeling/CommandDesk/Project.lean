import CommandDesk.Config.Document
import CommandDesk.Files

/-!
# Projects

A project is a folder. Its configuration stands in a folder of its own inside
it, and that folder also tells where the project begins.
-/

namespace CommandDesk

namespace Project

/-- The name of the folder that marks a project. -/
def folderName : String := ".slashdash"

/-- The name of the folder that marks a repository. -/
def repositoryName : String := ".git"

/-- The name of the configuration, from the project on. -/
def configName : String := folderName ++ "/config.yaml"

/-- The folder that marks a project. -/
def folder (root : Path) : Path := root ++ [folderName]

/-- The path of the configuration. -/
def configPath (root : Path) : Path := root ++ [folderName, "config.yaml"]

/-- Read the configuration. -/
def load (fs : Files) (root : Path) : Except Error Config :=
  match fs.get? (configPath root) with
  | none => .error .notInitialized
  | some (.file text) => Config.parse text
  | some .folder => .error (.fileAccess (configPath root).text)

/-- The configuration that was read, or the standard one where there is none. -/
def orStandard : Except Error Config → Except Error Config
  | .error .notInitialized => .ok .standard
  | r => r

/-- Write the configuration. -/
def save (fs : Files) (root : Path) (c : Config) : Except Error Files :=
  fs.write (configPath root) c.print

/-- Write the configuration unless there is one, and whether it was written. -/
def saveIfMissing (fs : Files) (root : Path) (c : Config) : Except Error (Files × Bool) :=
  fs.writeIfMissing (configPath root) c.print

/-- The nearest folder, from a place upward, that holds a folder of that name. -/
def findUpward (fs : Files) (name : String) (here : Path) : Option Path :=
  here.upward.find? fun p => fs.isFolder (p ++ [name])

/-- The project that a place belongs to: the nearest marked one, else the nearest repository, else
the place itself. -/
def rootOf (fs : Files) (here : Path) : Path :=
  ((findUpward fs folderName here).or (findUpward fs repositoryName here)).getD here

end Project

end CommandDesk
