import CommandDesk.Yaml.Scalar

/-!
# Tokens

The tokens of a document, and how those with a text of their own are read:
anchors, tags and directives.
-/

namespace CommandDesk

namespace Yaml

open Decimal

/-- A token. -/
inductive Token where
  /-- The version of the format that a document asks for. -/
  | version (major minor : Nat)
  /-- A handle that tags may begin with, and what it stands for. -/
  | tagHandle (handle stem : String)
  | documentStart
  | documentEnd
  | blockList
  | blockDict
  | blockEnd
  | flowList
  | flowListEnd
  | flowDict
  | flowDictEnd
  /-- The hyphen before an item. -/
  | item
  | comma
  | key
  | value
  | reference (name : String)
  | anchor (name : String)
  | tag (handle suffix : String)
  /-- A scalar without quotes. -/
  | plain (text : String)
  /-- A scalar in quotes or in a block. -/
  | text (text : String)
  deriving DecidableEq, Repr

/-! ## Anchors -/

/-- The name of an anchor or alias, after its mark. -/
def anchorName? (c : Cursor) : Option (String × Cursor) :=
  let (name, c) := c.takeWhile isNameChar
  if name.isEmpty then none
  else if c.endsWord || ['?', ':', ',', ']', '\x7d', '%', '@', '\x60'].any c.sees then
    some (String.ofList name, c)
  else none

/-! ## Tags -/

/-- The bytes of the percent escapes that begin here, and the place after them. -/
def percentBytes : Nat → List UInt8 → Cursor → Option (List UInt8 × Cursor)
  | 0, _, _ => none
  | fuel + 1, acc, c =>
    match c.rest with
    | '%' :: a :: b :: _ => do
      let n ← natIn? 16 [a, b]
      percentBytes fuel (acc ++ [n.toUInt8]) (c.skip 3)
    | '%' :: _ => none
    | _ => some (acc, c)

/-- Whether a character may stand in the text of a tag; commas and brackets may do so between angle
brackets. -/
def isTagChar (enclosed : Bool) (a : Char) : Bool :=
  isNameChar a || ";/?:@&=+$.!~*'()".contains a || (enclosed && [',', '[', ']'].contains a)

/-- The text of a tag after `acc`, which is in reverse. -/
def tagTextFrom? (enclosed : Bool) : Nat → List Char → Cursor → Option (List Char × Cursor)
  | 0, _, _ => none
  | fuel + 1, acc, c =>
    match c.peek with
    | some '%' => do
      let (bytes, c) ← percentBytes (c.rest.length + 1) [] c
      let s ← String.fromUTF8? ⟨bytes.toArray⟩
      tagTextFrom? enclosed fuel (s.toList.reverse ++ acc) c
    | some a =>
      if isTagChar enclosed a then tagTextFrom? enclosed fuel (a :: acc) (c.skip 1)
      else some (acc.reverse, c)
    | none => some (acc.reverse, c)

/-- The text of a tag that begins with `start`. -/
def tagText? (enclosed : Bool) (start : List Char) (c : Cursor) : Option (List Char × Cursor) :=
  tagTextFrom? enclosed (c.rest.length + 1) start.reverse c

/-- A handle: an exclamation mark, or a name between two of them. Without the second mark it is
no handle of its own. -/
def handle? (c : Cursor) : Option (List Char × Bool × Cursor) :=
  if !c.sees '!' then none
  else
    let (name, d) := (c.skip 1).takeWhile isNameChar
    if d.sees '!' then some ('!' :: name ++ ['!'], true, d.skip 1)
    else some ('!' :: name, name.isEmpty, d)

/-- The handle and the suffix of a tag, which begins with its mark. -/
def tag? (inFlow : Bool) (c : Cursor) : Option (Token × Cursor) := do
  let (t, c) ←
    if c.peekSecond = some '<' then do
      let (s, c) ← tagText? true [] (c.skip 2)
      if s.isEmpty || !c.sees '>' then none
      else some (Token.tag "" (String.ofList s), c.skip 1)
    else do
      let (handle, _, c) ← handle? c
      if 1 < handle.length && handle.getLast? = some '!' then
        let (s, c) ← tagText? false [] c
        if s.isEmpty then none else some (Token.tag (String.ofList handle) (String.ofList s), c)
      else
        let (s, c) ← tagText? false (handle.drop 1) c
        some (if s.isEmpty then Token.tag "" "!" else Token.tag "!" (String.ofList s), c)
  if c.endsWord || (inFlow && c.sees ',') then some (t, c) else none

/-! ## Directives -/

/-- A number of at most nine digits. -/
def versionPart? (c : Cursor) : Option (Nat × Cursor) :=
  let (ds, c) := c.takeWhile fun a => (digit? a).isSome
  if 9 < ds.length then none else (nat? ds).map (·, c)

/-- What a directive of this name says. -/
def directiveOf? (name : List Char) (c : Cursor) : Option (Token × Cursor) :=
  let c := c.skipWhile isGap
  if name = "YAML".toList then do
    let (major, c) ← versionPart? c
    if !c.sees '.' then none
    else
      let (minor, c) ← versionPart? (c.skip 1)
      some (.version major minor, c)
  else if name = "TAG".toList then do
    let (handle, proper, c) ← handle? c
    if !proper || !c.peek.any isGap then none
    else
      let (stem, c) ← tagText? true [] (c.skipWhile isGap)
      if stem.isEmpty || !c.endsWord then none
      else some (.tagHandle (String.ofList handle) (String.ofList stem), c)
  else none

/-- A directive, which begins with its mark and takes the whole line. -/
def directive? (c : Cursor) : Option (Token × Cursor) := do
  let (name, c) := (c.skip 1).takeWhile isNameChar
  if name.isEmpty || !c.endsWord then none
  else
    let (t, c) ← directiveOf? name c
    let c := (c.skipWhile isGap).skipComment
    if !c.endsLine then none
    else match c.lineBreak? with
      | some (_, c) => some (t, c)
      | none => some (t, c)

end Yaml

end CommandDesk
