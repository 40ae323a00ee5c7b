import CommandDesk.Node.Basic
import CommandDesk.Yaml.Scan

/-!
# Reading YAML

A text holds at most one document. Scalars without quotes stay bare, since what
they mean depends on what is asked for; a value that is left out is the empty
bare scalar. An alias stands for the value under its anchor.
-/

namespace CommandDesk

namespace Yaml

/-! ## Directives -/

/-- What the handles of tags stand for when no directive says so. -/
def standardHandles : List (String × String) := [("!", "!"), ("!!", "tag:yaml.org,2002:")]

/-- The directives at the start of a document, and the tokens after them. The version is given at
most once and is 1.1 or 1.2; a handle is given at most once. -/
def directives? (versioned : Bool) (handles : List (String × String)) :
    List Token → Option (List (String × String) × List Token)
  | .version major minor :: ts =>
    if versioned || major ≠ 1 || (minor ≠ 1 && minor ≠ 2) then none
    else directives? true handles ts
  | .tagHandle handle stem :: ts =>
    if handles.any (·.1 = handle) then none
    else directives? versioned (handles ++ [(handle, stem)]) ts
  | ts => some (handles, ts)

/-! ## Nodes -/

/-- What is known while a document is read. -/
structure Scope where
  /-- What the handles of tags stand for. -/
  handles : List (String × String)
  /-- The values under anchors, in the order of their starts. -/
  anchors : Array (String × Node) := #[]

namespace Scope

/-- Open an anchor. While its value is being read, an alias of it stands for no usable value. -/
def openAnchor (s : Scope) (name : String) : Scope :=
  { s with anchors := s.anchors.push (name, .other) }

/-- Set the value of the anchor that was opened after `place` others. -/
def closeAnchor (s : Scope) (place : Nat) (name : Option String) (n : Node) : Scope :=
  match name with
  | some name => { s with anchors := s.anchors.setIfInBounds place (name, n) }
  | none => s

/-- The value of the last anchor with a name. -/
def valueOf? (s : Scope) (name : String) : Option Node :=
  (s.anchors.toList.reverse.find? (·.1 = name)).map (·.2)

/-- The tag that a handle and a suffix stand for. -/
def tag? (s : Scope) (handle suffix : String) : Option String :=
  if handle = "" then some suffix
  else (s.handles.find? (·.1 = handle)).map fun h => h.2 ++ suffix

end Scope

/-- What stands before a node: an anchor and a tag, in either order, each at most once. -/
structure Properties where
  anchor : Option String := none
  tag : Option String := none

namespace Properties

/-- Read the properties of a node. -/
def read? (s : Scope) : List Token → Option (Properties × List Token)
  | .anchor name :: .tag handle suffix :: ts => do
    some ({ anchor := some name, tag := ← s.tag? handle suffix }, ts)
  | .tag handle suffix :: .anchor name :: ts => do
    some ({ anchor := some name, tag := ← s.tag? handle suffix }, ts)
  | .anchor name :: ts => some ({ anchor := some name }, ts)
  | .tag handle suffix :: ts => do some ({ tag := ← s.tag? handle suffix }, ts)
  | ts => some ({}, ts)

/-- Whether there are any. -/
def isAny (p : Properties) : Bool := p.anchor.isSome || p.tag.isSome

/-- Put a node under the tag. -/
def apply (p : Properties) (n : Node) : Node :=
  match p.tag with
  | some tag => .tagged tag n
  | none => n

end Properties

/-- The value that is left out. -/
def absent : Node := .bare ""

/-- A dictionary. A key is the text of a scalar; with any other key it is not usable. -/
def dictOf (entries : List (Node × Node)) : Node :=
  let key? : Node → Option String
    | .text s | .bare s => some s
    | _ => none
  match entries.mapM fun (k, v) => (key? k.untagged).map (·, v) with
  | some es => .dict es
  | none => .other

/-- Whether the tokens begin with the end of something that may have been left out. -/
def beginsWith (ends : List Token) (ts : List Token) : Bool := ts.head?.any ends.contains

/-- What has been read: a value, the scope after it, and the tokens after it. -/
abbrev Reading (β : Type) := β × Scope × List Token

mutual

/-- A node. Outside brackets it may be a collection without brackets; as a value it may be a list
whose items stand at the level of its key. -/
def node? (inBlock atKey : Bool) : Nat → Scope → List Token → Option (Reading Node)
  | 0, _, _ => none
  | _ + 1, s, .reference name :: ts => do some (← s.valueOf? name, s, ts)
  | fuel + 1, s, ts => do
    let (p, ts) ← Properties.read? s ts
    let place := s.anchors.size
    let s := match p.anchor with
      | some name => s.openAnchor name
      | none => s
    let (n, s, ts) ← content? inBlock atKey p fuel s ts
    let n := p.apply n
    some (n, s.closeAnchor place p.anchor n, ts)

/-- What stands after the properties of a node. -/
def content? (inBlock atKey : Bool) (p : Properties) :
    Nat → Scope → List Token → Option (Reading Node)
  | 0, _, _ => none
  | fuel + 1, s, ts =>
    match ts with
    | .plain t :: ts => some (.bare t, s, ts)
    | .text t :: ts => some (.text t, s, ts)
    | .flowList :: ts => do
      let (ns, s, ts) ← flowItems? true fuel [] s ts
      some (.list ns, s, ts)
    | .flowDict :: ts => do
      let (es, s, ts) ← flowEntries? true fuel [] s ts
      some (dictOf es, s, ts)
    | ts =>
      if atKey && beginsWith [.item] ts then do
        let (ns, s, ts) ← items? [.item, .key, .value, .blockEnd] fuel [] s ts
        some (.list ns, s, ts)
      else if inBlock && beginsWith [.blockList] ts then do
        let (ns, s, ts) ← items? [.item, .blockEnd] fuel [] s (ts.drop 1)
        if beginsWith [.blockEnd] ts then some (.list ns, s, ts.drop 1) else none
      else if inBlock && beginsWith [.blockDict] ts then do
        let (es, s, ts) ← entries? fuel [] s (ts.drop 1)
        some (dictOf es, s, ts)
      else if p.isAny then some (absent, s, ts)
      else none

/-- The items of a list without brackets after those in `acc`, which are in reverse. An item is
left out where one of the `ends` follows its hyphen. -/
def items? (ends : List Token) : Nat → List Node → Scope → List Token → Option (Reading (List Node))
  | 0, _, _, _ => none
  | fuel + 1, acc, s, ts =>
    match ts with
    | .item :: ts =>
      if beginsWith ends ts then items? ends fuel (absent :: acc) s ts
      else do
        let (n, s, ts) ← node? true false fuel s ts
        items? ends fuel (n :: acc) s ts
    | ts => some (acc.reverse, s, ts)

/-- The entries of a dictionary without brackets after those in `acc`, which are in reverse, up to
its end. -/
def entries? : Nat → List (Node × Node) → Scope → List Token → Option (Reading (List (Node × Node)))
  | 0, _, _, _ => none
  | fuel + 1, acc, s, ts => do
    match ts with
    | .blockEnd :: ts => some (acc.reverse, s, ts)
    | .key :: ts =>
      let (k, s, ts) ←
        if beginsWith [.key, .value, .blockEnd] ts then some (absent, s, ts)
        else node? true true fuel s ts
      let (v, s, ts) ← match ts with
        | .value :: ts =>
          if beginsWith [.key, .value, .blockEnd] ts then some (absent, s, ts)
          else node? true true fuel s ts
        | ts => some (absent, s, ts)
      entries? fuel ((k, v) :: acc) s ts
    | _ => none

/-- The items of a list in brackets after those in `acc`, which are in reverse, up to its end. An
item with a key is a dictionary of one entry. -/
def flowItems? (first : Bool) : Nat → List Node → Scope → List Token → Option (Reading (List Node))
  | 0, _, _, _ => none
  | fuel + 1, acc, s, ts => do
    match ts with
    | .flowListEnd :: ts => some (acc.reverse, s, ts)
    | ts =>
      let ts ← if first then some ts else if beginsWith [.comma] ts then some (ts.drop 1) else none
      match ts with
      | .flowListEnd :: ts => some (acc.reverse, s, ts)
      | .key :: ts =>
        let (e, s, ts) ← flowPair? fuel s ts
        flowItems? false fuel (dictOf [e] :: acc) s ts
      | ts =>
        let (n, s, ts) ← node? false false fuel s ts
        flowItems? false fuel (n :: acc) s ts

/-- The entry of an item that has a key. A key that is left out takes the next token along. -/
def flowPair? : Nat → Scope → List Token → Option (Reading (Node × Node))
  | 0, _, _ => none
  | fuel + 1, s, ts => do
    let (k, s, ts) ←
      if beginsWith [.value, .comma, .flowListEnd] ts then some (absent, s, ts.drop 1)
      else node? false false fuel s ts
    match ts with
    | .value :: ts =>
      if beginsWith [.comma, .flowListEnd] ts then some ((k, absent), s, ts)
      else
        let (v, s, ts) ← node? false false fuel s ts
        some ((k, v), s, ts)
    | ts => some ((k, absent), s, ts)

/-- The entries of a dictionary in brackets after those in `acc`, which are in reverse, up to its
end. -/
def flowEntries? (first : Bool) :
    Nat → List (Node × Node) → Scope → List Token → Option (Reading (List (Node × Node)))
  | 0, _, _, _ => none
  | fuel + 1, acc, s, ts => do
    match ts with
    | .flowDictEnd :: ts => some (acc.reverse, s, ts)
    | ts =>
      let ts ← if first then some ts else if beginsWith [.comma] ts then some (ts.drop 1) else none
      match ts with
      | .flowDictEnd :: ts => some (acc.reverse, s, ts)
      | .key :: ts =>
        let (k, s, ts) ←
          if beginsWith [.value, .comma, .flowDictEnd] ts then some (absent, s, ts)
          else node? false false fuel s ts
        let (v, s, ts) ← match ts with
          | .value :: ts =>
            if beginsWith [.comma, .flowDictEnd] ts then some (absent, s, ts)
            else node? false false fuel s ts
          | ts => some (absent, s, ts)
        flowEntries? false fuel ((k, v) :: acc) s ts
      | ts =>
        let (k, s, ts) ← node? false false fuel s ts
        flowEntries? false fuel ((k, absent) :: acc) s ts

end

/-! ## Documents -/

/-- Whether the token cannot begin the content of a document. -/
def isMargin : Token → Bool
  | .version .. | .tagHandle .. | .documentStart | .documentEnd => true
  | _ => false

/-- The node of a document, and the tokens after it. -/
def documentNode? (handles : List (String × String)) (ts : List Token) :
    Option (Node × List Token) := do
  let (n, _, ts) ← node? true false (3 * ts.length + 3) { handles } ts
  some (n, ts)

/-- The only document, and the tokens after it. Its start may be left out when no directive stands
before it. -/
def document? (ts : List Token) : Option (Node × List Token) :=
  match ts with
  | [] => some (absent, [])
  | t :: _ =>
    if isMargin t && t ≠ .documentEnd then
      match directives? false [] ts with
      | some (handles, .documentStart :: ts) =>
        if ts.head?.all isMargin then some (absent, ts)
        else
          let more := standardHandles.filter fun h => !handles.any (·.1 = h.1)
          documentNode? (handles ++ more) ts
      | _ => none
    else documentNode? standardHandles ts

/-- Read a text. -/
def parse? (text : String) : Option Node := do
  let (n, ts) ← document? (← tokens? text)
  if ts.all (· = .documentEnd) then some n else none

end Yaml

end CommandDesk
