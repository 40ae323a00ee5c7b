import CommandDesk.Yaml.Token

/-!
# The tokens of a document

A document is read from its start to its end. Outside brackets the columns of
tokens open and close collections. A token may turn out to be a key when a colon
follows it on its line; the marks that belong before it are then put there.
-/

namespace CommandDesk

namespace Yaml

/-- A token that a colon would make a key. -/
structure KeyCandidate where
  /-- How many tokens stand before it. -/
  place : Nat
  index : Nat
  line : Nat
  column : Nat
  /-- Whether nothing but a key can stand there. -/
  required : Bool

/-- A document that has been read up to a place. -/
structure Scan where
  cursor : Cursor
  /-- The tokens so far, the last one first. -/
  tokens : List Token := []
  /-- The columns of the open collections without brackets, the innermost first. -/
  columns : List Nat := []
  /-- The candidate of every open bracket, the innermost first, and of the document. -/
  candidates : List (Option KeyCandidate) := [none]
  /-- Whether a key may begin here. -/
  keyAllowed : Bool := true

namespace Scan

/-- Whether a bracket is open. -/
def inFlow (s : Scan) : Bool := 1 < s.candidates.length

/-- The column at which the content of the innermost collection must stand at least. -/
def contentColumn (s : Scan) : Nat :=
  match s.columns with
  | n :: _ => n + 1
  | [] => 0

/-- Add a token. -/
def push (s : Scan) (t : Token) : Scan := { s with tokens := t :: s.tokens }

/-- Add a token and go on at a place. -/
def pushAt (s : Scan) (t : Token) (c : Cursor) : Scan :=
  { s with tokens := t :: s.tokens, cursor := c }

/-- Put a token before all but the first `place` tokens. -/
def insertToken (s : Scan) (place : Nat) (t : Token) : Scan :=
  let later := s.tokens.length - place
  { s with tokens := s.tokens.take later ++ t :: s.tokens.drop later }

/-- The candidate of the innermost bracket. -/
def candidate? (s : Scan) : Option KeyCandidate := s.candidates.head?.join

/-- Set the candidate of the innermost bracket. -/
def setCandidate (s : Scan) (k : Option KeyCandidate) : Scan :=
  { s with candidates := k :: s.candidates.tail }

/-- Give up the candidate. A key that is required must not be missed. -/
def dropCandidate? (s : Scan) : Option Scan :=
  if s.candidate?.any (·.required) then none else some (s.setCandidate none)

/-- Give up the candidates that no colon can follow: a key stands on one line and has at most 1024
characters. -/
def dropStale? (s : Scan) : Option Scan := do
  let candidates ← s.candidates.mapM fun
    | some k =>
      if k.line < s.cursor.line || k.index + 1024 < s.cursor.index then
        if k.required then none else some none
      else some (some k)
    | none => some none
  some { s with candidates }

/-- Take the next token as a candidate, if a key may begin here. -/
def saveCandidate? (s : Scan) : Option Scan := do
  if !s.keyAllowed then some s
  else
    let k : KeyCandidate :=
      { place := s.tokens.length
        index := s.cursor.index
        line := s.cursor.line
        column := s.cursor.column
        required := !s.inFlow && s.columns.head? = some s.cursor.column }
    some ((← s.dropCandidate?).setCandidate (some k))

/-- Open a collection at a column, if it is further in than those that are open. Its mark goes
before all but the first `place` tokens. -/
def openCollection (s : Scan) (column place : Nat) (t : Token) : Scan :=
  if s.inFlow || column < s.contentColumn then s
  else { s.insertToken place t with columns := column :: s.columns }

/-- Close the collections that are further in than `column`; all of them where there is none. -/
def closeCollections (s : Scan) (column : Option Nat) : Scan :=
  if s.inFlow then s
  else
    let ends (n : Nat) : Bool := column.all (· < n)
    { s with
      columns := s.columns.dropWhile ends
      tokens := (s.columns.takeWhile ends).map (fun _ => Token.blockEnd) ++ s.tokens }

/-- Go to the next token: past blanks, comments and line breaks. A tab is no blank where a key may
begin outside brackets. -/
def skipBlank : Nat → Scan → Scan
  | 0, s => s
  | fuel + 1, s =>
    let c := if s.cursor.column = 0 && s.cursor.sees '\ufeff' then s.cursor.skip 1 else s.cursor
    let c := c.skipWhile fun a => a = ' ' || ((s.inFlow || !s.keyAllowed) && a = '\t')
    let c := c.skipComment
    match c.lineBreak? with
    | some (_, c) => skipBlank fuel { s with cursor := c, keyAllowed := s.keyAllowed || !s.inFlow }
    | none => { s with cursor := c }

/-! ## Tokens by their first character -/

/-- A line that begins with a mark of the document, or with a directive. -/
def margin? (s : Scan) (t : Token) (c : Cursor) : Option Scan := do
  let s ← (s.closeCollections none).dropCandidate?
  some { s.pushAt t c with keyAllowed := false }

/-- An opening bracket. -/
def openBracket? (s : Scan) (t : Token) : Option Scan := do
  let s ← s.saveCandidate?
  some { s.pushAt t (s.cursor.skip 1) with candidates := none :: s.candidates, keyAllowed := true }

/-- A closing bracket. -/
def closeBracket? (s : Scan) (t : Token) : Option Scan := do
  let s ← s.dropCandidate?
  let s := if s.inFlow then { s with candidates := s.candidates.tail } else s
  some { s.pushAt t (s.cursor.skip 1) with keyAllowed := false }

/-- A comma. -/
def comma? (s : Scan) : Option Scan := do
  let s ← s.dropCandidate?
  some { s.pushAt .comma (s.cursor.skip 1) with keyAllowed := true }

/-- The hyphen before an item. -/
def item? (s : Scan) : Option Scan := do
  if !s.inFlow && !s.keyAllowed then none
  else
    let s ← (s.openCollection s.cursor.column s.tokens.length .blockList).dropCandidate?
    some { s.pushAt .item (s.cursor.skip 1) with keyAllowed := true }

/-- The mark before a key. -/
def key? (s : Scan) : Option Scan := do
  if !s.inFlow && !s.keyAllowed then none
  else
    let s ← (s.openCollection s.cursor.column s.tokens.length .blockDict).dropCandidate?
    some { s.pushAt .key (s.cursor.skip 1) with keyAllowed := !s.inFlow }

/-- The colon before a value. It makes the candidate a key. -/
def value? (s : Scan) : Option Scan := do
  let s ← match s.candidate? with
    | some k =>
      let s := (s.insertToken k.place .key).openCollection k.column k.place .blockDict
      some { s.setCandidate none with keyAllowed := false }
    | none =>
      if !s.inFlow && !s.keyAllowed then none
      else
        let s := s.openCollection s.cursor.column s.tokens.length .blockDict
        some { s with keyAllowed := !s.inFlow }
  some (s.pushAt .value (s.cursor.skip 1))

/-- A token that may be a key or may stand before one. -/
def word? (s : Scan) (r : Option (Token × Cursor)) : Option Scan := do
  let s ← s.saveCandidate?
  let (t, c) ← r
  some { s.pushAt t c with keyAllowed := false }

/-- A scalar without quotes. Where line breaks follow it, a key may begin. -/
def plainScalar? (s : Scan) : Option Scan := do
  let s ← s.saveCandidate?
  let (t, broken, c) ← plain? s.inFlow s.contentColumn s.cursor
  some { s.pushAt (.plain t) c with keyAllowed := broken }

/-- A block scalar. -/
def blockScalar? (s : Scan) : Option Scan := do
  let s ← s.dropCandidate?
  let (t, c) ← block? s.contentColumn s.cursor
  some { s.pushAt (.text t) c with keyAllowed := true }

/-- Whether a scalar without quotes may begin with the character `a` before `next`. -/
def startsPlain (s : Scan) (a : Char) (next : Option Char) : Bool :=
  !(isGap a || isBreak a
      || ['-', '?', ':', ',', '[', ']', '\x7b', '\x7d', '#', '&', '*', '!', '|', '>', '\'', '"',
        '%', '@', '\x60'].contains a)
    || (a = '-' && !next.any isGap)
    || (!s.inFlow && (a = '?' || a = ':') && !endsWord next)

/-- Read the token that begins with the character `a`, at the cursor. -/
def token? (s : Scan) (a : Char) : Option Scan :=
  let c := s.cursor
  let next := c.peekSecond
  let alone := endsWord next
  if c.column = 0 && a = '%' then do
    let (t, c) ← directive? c
    s.margin? t c
  else if c.marks '-' then s.margin? .documentStart (c.skip 3)
  else if c.marks '.' then s.margin? .documentEnd (c.skip 3)
  else if a = '[' then s.openBracket? .flowList
  else if a = '\x7b' then s.openBracket? .flowDict
  else if a = ']' then s.closeBracket? .flowListEnd
  else if a = '\x7d' then s.closeBracket? .flowDictEnd
  else if a = ',' then s.comma?
  else if a = '-' && alone then s.item?
  else if a = '?' && (s.inFlow || alone) then s.key?
  else if a = ':' && (s.inFlow || alone) then s.value?
  else if a = '*' then s.word? ((anchorName? (c.skip 1)).map fun (n, c) => (.reference n, c))
  else if a = '&' then s.word? ((anchorName? (c.skip 1)).map fun (n, c) => (.anchor n, c))
  else if a = '!' then s.word? (tag? s.inFlow c)
  else if (a = '|' || a = '>') && !s.inFlow then s.blockScalar?
  else if a = '\'' || a = '"' then s.word? ((quoted? c).map fun (t, c) => (.text t, c))
  else if s.startsPlain a next then s.plainScalar?
  else none

/-- Read the tokens up to the end. -/
def finish? : Nat → Scan → Option (List Token)
  | 0, _ => none
  | fuel + 1, s => do
    let s ← (s.skipBlank (s.cursor.rest.length + 1)).dropStale?
    match s.cursor.peek with
    | some a => finish? fuel (← (s.closeCollections (some s.cursor.column)).token? a)
    | none =>
      let s ← (s.closeCollections none).dropCandidate?
      some s.tokens.reverse

end Scan

/-- The tokens of a text. A mark of the byte order may stand first. -/
def tokens? (text : String) : Option (List Token) :=
  let s := Text.dropInitial '\ufeff' text.toList
  if s.all isAllowed then Scan.finish? (s.length + 1) { cursor := { rest := s } } else none

end Yaml

end CommandDesk
