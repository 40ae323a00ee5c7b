import CommandDesk.Node.Bare

/-!
# Values in documents

How values are read from nodes and written to them. A record is read from a
dictionary, in which unknown keys are passed over and no key of a field may
occur twice, or from a list of its fields in order.
-/

namespace CommandDesk

/-- Values that have a form in documents. -/
class Encode (β : Type) where
  encode : β → Node

/-- Values that can be read from documents. -/
class Decode (β : Type) where
  decode? : Node → Option β

export Encode (encode)
export Decode (decode?)

/-! ## Scalars -/

namespace Node

/-- Whether a node stands for nothing. -/
def isNull (n : Node) : Bool :=
  match n.untagged with
  | .null => true
  | .bare s => s = "" || Bare.isNullWord s
  | _ => false

/-- The whole number that a node holds. -/
def int? (n : Node) : Option Int :=
  match n.untagged with
  | .int i => some i
  | .bare s => Bare.int? s
  | _ => none

/-- The natural number below a limit that a node holds. -/
def natBelow? (limit : Nat) (n : Node) : Option Nat :=
  match n.untagged with
  | .bare s => if Bare.hasMinus s then none else below (Bare.int? s)
  | n => below n.int?
where
  /-- The value, if it is in range. -/
  below (i : Option Int) : Option Nat :=
    (i.filter fun (i : Int) => 0 ≤ i && i < limit).map Int.toNat

end Node

instance : Encode Bool := ⟨.flag⟩

instance : Decode Bool where
  decode? n := match n.untagged with
    | .flag b => some b
    | .bare s => Bare.flag? s
    | _ => none

instance : Encode String := ⟨.text⟩

instance : Decode String where
  decode? n := match n.untagged with
    | .text s | .bare s => some s
    | _ => none

instance : Encode UInt64 := ⟨fun n => .int n.toNat⟩

instance : Decode UInt64 := ⟨fun n => (n.natBelow? UInt64.size).map UInt64.ofNat⟩

instance : Encode UInt32 := ⟨fun n => .int n.toNat⟩

instance : Decode UInt32 := ⟨fun n => (n.natBelow? UInt32.size).map UInt32.ofNat⟩

instance : Encode Float := ⟨.num⟩

instance : Decode Float where
  decode? n := match n.untagged with
    | .num x => some x
    | .int i => some (Decimal.nearest (i < 0) i.natAbs 0)
    | .bare s => Bare.float? s
    | _ => none

instance : Encode Node := ⟨id⟩

instance {β : Type} [Encode β] : Encode (Option β) where
  encode
    | none => .null
    | some b => encode b

instance {β : Type} [Decode β] : Decode (Option β) where
  decode? n := if n.isNull then some none else (decode? n).map some

instance {β : Type} [Encode β] : Encode (List β) := ⟨fun bs => .list (bs.map encode)⟩

instance {β : Type} [Decode β] : Decode (List β) where
  decode? n := match n.untagged with
    | .list ns => ns.mapM decode?
    | .bare s => if s = "" then some [] else none
    | _ => none

/-! ## Records -/

/-- The fields of a record as they stand in a document, each under its own name. -/
structure Record where
  entries : List (String × Node)
  /-- Whether the fields stood in a list, without their names. -/
  positional : Bool

namespace Record

/-- The single value of a field in a dictionary, under one of its names. -/
def pick? (entries : List (String × Node)) (names : List String) :
    Option (Option (String × Node)) :=
  match entries.filter fun e => names.contains e.1 with
  | [] => some none
  | [e] => some (some (names.headD "", e.2))
  | _ => none

/-- Read the fields of a record. Each field has a name, and perhaps others that it may be
written under. -/
def ofNode? (fields : List (List String)) (n : Node) : Option Record :=
  match n.untagged with
  | .dict entries => do
    let found ← fields.mapM (pick? entries)
    some ⟨found.filterMap id, false⟩
  | .list items =>
    if fields.length < items.length then none
    else some ⟨(fields.map (·.headD "")).zip items, true⟩
  | .bare s => if s = "" then some ⟨[], false⟩ else none
  | _ => none

/-- The node of a field. -/
def find? (r : Record) (name : String) : Option Node :=
  (r.entries.find? (·.1 = name)).map (·.2)

/-- A field that must be there. -/
def required? {β : Type} [Decode β] (r : Record) (name : String) : Option β :=
  (r.find? name).bind decode?

/-- A field that takes a default where it is missing. -/
def defaulted? {β : Type} [Decode β] (r : Record) (name : String) (default : β) : Option β :=
  match r.find? name with
  | none => some default
  | some n => decode? n

/-- A field that may be missing from a dictionary, though not from a list. -/
def optional? {β : Type} [Decode β] (r : Record) (name : String) : Option (Option β) :=
  match r.find? name with
  | none => if r.positional then none else some none
  | some n => decode? n

end Record

/-- The fields of a record that are read under one name each. -/
def Record.read? (names : List String) (n : Node) : Option Record :=
  Record.ofNode? (names.map fun f => [f]) n

/-! ## Writing fields -/

/-- A field that is always written. -/
def field {β : Type} [Encode β] (name : String) (b : β) : Option (String × Node) :=
  some (name, encode b)

/-- A field that is left out when there is no value. -/
def fieldIfSome {β : Type} [Encode β] (name : String) (b : Option β) : Option (String × Node) :=
  b.map fun b => (name, encode b)

/-- A field that is left out when the list is empty. -/
def fieldIfAny {β : Type} [Encode β] (name : String) (bs : List β) : Option (String × Node) :=
  if bs.isEmpty then none else some (name, encode bs)

/-! ## Variants named by a word -/

/-- The word that names a variant: a text, a dictionary from that word to nothing, or nothing
under that word as a local tag. Tags of other kinds do not count. -/
def Node.word? : Node → Option String
  | .text s | .bare s => some s
  | .dict [(s, .null)] => some s
  | .tagged tag n =>
    match tag.toList with
    | ['!'] => if n.isNull then some tag else none
    | '!' :: name => if n.isNull then some (String.ofList name) else none
    | _ => n.word?
  | _ => none

end CommandDesk
