import CommandDesk.Node.Basic

/-!
# Sorted documents

Dictionaries with their keys in order, at every depth.
-/

namespace CommandDesk

namespace Node

/-- Insert an entry before the first one whose key is not less. -/
def insertEntry (e : String × Node) : List (String × Node) → List (String × Node)
  | [] => [e]
  | f :: fs => if f.1 < e.1 then f :: insertEntry e fs else e :: f :: fs

mutual

/-- The document with sorted keys. -/
def sorted : Node → Node
  | .list ns => .list (sortedItems ns)
  | .dict es => .dict (sortedEntries es)
  | n => n

/-- The items with sorted keys. -/
def sortedItems : List Node → List Node
  | [] => []
  | n :: ns => sorted n :: sortedItems ns

/-- The entries in order. -/
def sortedEntries : List (String × Node) → List (String × Node)
  | [] => []
  | (k, n) :: es => insertEntry (k, sorted n) (sortedEntries es)

end

end Node

end CommandDesk
