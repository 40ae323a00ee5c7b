/-!
# Documents as data

A `Node` is what a document holds: the tree between its text and the values
that are read from it or written to it. Quoted scalars are texts; a bare scalar
has no kind of its own and is read as what is asked for.
-/

namespace CommandDesk

/-- A value in a document. -/
inductive Node where
  | null
  | flag (b : Bool)
  | int (i : Int)
  | num (x : Float)
  | text (s : String)
  /-- A scalar written without quotes, in a format where it has no kind of its own. -/
  | bare (s : String)
  | list (items : List Node)
  | dict (entries : List (String × Node))
  /-- A value under a tag. -/
  | tagged (tag : String) (value : Node)
  /-- Something that only a reader that skips it accepts. -/
  | other
  deriving BEq, Inhabited

namespace Node

/-- A value without its tag. -/
def untagged : Node → Node
  | .tagged _ n => n
  | n => n

/-- The entries of a dictionary with that key, in order. -/
def valuesOf (entries : List (String × Node)) (key : String) : List Node :=
  (entries.filter (·.1 = key)).map (·.2)

/-- Set a key: in its place if it is there, else at the end. -/
def setKey (entries : List (String × Node)) (key : String) (value : Node) :
    List (String × Node) :=
  if entries.any (·.1 = key) then entries.map fun e => if e.1 = key then (key, value) else e
  else entries ++ [(key, value)]

/-- The value under a key, if this is a dictionary that has it. -/
def get? (n : Node) (key : String) : Option Node :=
  match n with
  | .dict entries => (entries.find? (·.1 = key)).map (·.2)
  | _ => none

/-- A dictionary of those entries that are present. -/
def ofFields (fields : List (Option (String × Node))) : Node := .dict (fields.filterMap id)

end Node

end CommandDesk
