import CommandDesk.Yaml.Cursor
import CommandDesk.Decimal.Reader

/-!
# Reading scalars

Scalars in quotes, without quotes, and in blocks. Each reader is given the place
where its scalar begins and returns the text and the place after it.
-/

namespace CommandDesk

namespace Yaml

open Decimal

/-! ## In quotes -/

/-- What an escape stands for, given the letter after the backslash: a character, or a code in so
many digits. -/
def unescape? : Char → Option (Char ⊕ Nat)
  | '0' => some (.inl '\x00')
  | 'a' => some (.inl '\x07')
  | 'b' => some (.inl '\x08')
  | 't' | '\t' => some (.inl '\t')
  | 'n' => some (.inl '\n')
  | 'v' => some (.inl '\x0b')
  | 'f' => some (.inl '\x0c')
  | 'r' => some (.inl '\r')
  | 'e' => some (.inl '\x1b')
  | ' ' => some (.inl ' ')
  | '"' => some (.inl '"')
  | '/' => some (.inl '/')
  | '\\' => some (.inl '\\')
  | 'N' => some (.inl '\x85')
  | '_' => some (.inl '\xa0')
  | 'L' => some (.inl '\u2028')
  | 'P' => some (.inl '\u2029')
  | 'x' => some (.inr 2)
  | 'u' => some (.inr 4)
  | 'U' => some (.inr 8)
  | _ => none

/-- The character of a code. -/
def charOf? (n : Nat) : Option Char := if n.isValidChar then some (Char.ofNat n) else none

/-- The character of the escape that begins here, and the place after it. -/
def escape? (c : Cursor) : Option (Char × Cursor) := do
  match ← unescape? (← c.peekSecond) with
  | .inl a => some (a, c.skip 2)
  | .inr width =>
    let digits := (c.skip 2).rest.take width
    if digits.length < width then none
    else some (← charOf? (← natIn? 16 digits), c.skip (2 + width))

/-- The rest of a scalar in quotes after the text `acc`, which is in reverse. Escapes are read in
double quotes; in single quotes a quote is written twice. -/
def quotedFrom? (double : Bool) : Nat → List Char → Cursor → Option (String × Cursor)
  | 0, _, _ => none
  | fuel + 1, acc, c =>
    match c.peek with
    | none => none
    | some a =>
      if c.marksDocument then none
      else if a = (if double then '"' else '\'') then
        if !double && c.peekSecond = some '\'' then quotedFrom? double fuel (a :: acc) (c.skip 2)
        else some (String.ofList acc.reverse, c.skip 1)
      else if double && a = '\\' then
        match (c.skip 1).lineBreak? with
        | some (_, c) => do
          let (g, c) ← c.gap? 0 { first := some [] }
          quotedFrom? double fuel (g.text.reverse ++ acc) c
        | none => do
          let (e, c) ← escape? c
          quotedFrom? double fuel (e :: acc) c
      else if isGap a || isBreak a then do
        let (g, c) ← c.gap? 0 {}
        quotedFrom? double fuel (g.text.reverse ++ acc) c
      else quotedFrom? double fuel (a :: acc) (c.skip 1)

/-- A scalar in quotes, which begins with its quote. -/
def quoted? (c : Cursor) : Option (String × Cursor) :=
  quotedFrom? (c.sees '"') (c.rest.length + 1) [] (c.skip 1)

/-! ## Without quotes -/

/-- How much of a line belongs to a word of a plain scalar. Inside brackets, commas and brackets
end it, and a colon before one of those is out of place. -/
def wordLength? (inFlow : Bool) : List Char → Option Nat
  | [] => some 0
  | a :: s =>
    if isGap a || isBreak a then some 0
    else if inFlow && a = ':' && s.head?.any [',', '?', '[', ']', '\x7b', '\x7d'].contains then none
    else if a = ':' && endsWord s.head? then some 0
    else if inFlow && [',', '[', ']', '\x7b', '\x7d'].contains a then some 0
    else (wordLength? inFlow s).map (· + 1)

/-- The rest of a plain scalar after the text `acc`, which is in reverse, and a gap; also whether
line breaks follow it. Its lines must stand at least at `column`. -/
def plainFrom? (inFlow : Bool) (column : Nat) :
    Nat → List Char → Gap → Cursor → Option (String × Bool × Cursor)
  | 0, _, _, _ => none
  | fuel + 1, acc, g, c => do
    let n ← if c.marksDocument || c.sees '#' then some 0 else wordLength? inFlow c.rest
    if n = 0 then some (String.ofList acc.reverse, g.isBroken, c)
    else
      let acc := (c.rest.take n).reverse ++ g.text.reverse ++ acc
      let (g, c) ← (c.skip n).gap? column {}
      if !inFlow && c.column < column then some (String.ofList acc.reverse, g.isBroken, c)
      else plainFrom? inFlow column fuel acc g c

/-- A plain scalar, and whether line breaks follow it. -/
def plain? (inFlow : Bool) (column : Nat) (c : Cursor) : Option (String × Bool × Cursor) :=
  plainFrom? inFlow column (c.rest.length + 1) [] {} c

/-! ## In blocks -/

/-- What becomes of the line breaks at the end of a block. -/
inductive Chomp where
  | strip
  | clip
  | keep
  deriving DecidableEq

/-- What is written at the head of a block. -/
structure BlockHead where
  chomp : Chomp := .clip
  /-- By how much the lines are indented, where that is given. -/
  indent : Option Nat := none

/-- Read the chomping mark, if it is one. -/
def chomp? : Option Char → Option Chomp
  | some '+' => some .keep
  | some '-' => some .strip
  | _ => none

/-- The head of a block after its first mark: a chomping mark and an indent, each at most once,
and nothing else on the line but a comment. -/
def blockHead? (c : Cursor) : Option (BlockHead × Cursor) := do
  let indentAt (c : Cursor) : Option (Option Nat × Cursor) :=
    match c.peek.bind digit? with
    | some 0 => none
    | some n => some (some n, c.skip 1)
    | none => some (none, c)
  let (head, c) ← match chomp? c.peek with
    | some m => do
      let (n, c) ← indentAt (c.skip 1)
      some ({ chomp := m, indent := n : BlockHead }, c)
    | none => do
      let (n, c) ← indentAt c
      match n, chomp? c.peek with
      | some n, some m => some ({ chomp := m, indent := some n }, c.skip 1)
      | n, _ => some ({ indent := n }, c)
  let c := (c.skipWhile isGap).skipComment
  if !c.endsLine then none
  else match c.lineBreak? with
    | some (_, c) => some (head, c)
    | none => some (head, c)

/-- The empty lines of a block that begin here, after those in `acc`: their line breaks, the
widest indent seen, and the place after them. Indents are read up to `indent`, where that is
known. -/
def emptyLines? (indent : Option Nat) :
    Nat → List Char → Nat → Cursor → Option (List Char × Nat × Cursor)
  | 0, _, _, _ => none
  | fuel + 1, acc, widest, c =>
    let spaces := (c.rest.takeWhile (· = ' ')).length
    let c := c.skip (match indent with
      | some n => min spaces (n - c.column)
      | none => spaces)
    let widest := max widest c.column
    if indent.all (c.column < ·) && c.sees '\t' then none
    else match c.lineBreak? with
      | some (b, c) => emptyLines? indent fuel (acc ++ [b]) widest c
      | none => some (acc, widest, c)

/-- The lines of a block so far. -/
structure BlockText where
  /-- The text, in reverse. -/
  text : List Char := []
  /-- The line break after the last line. -/
  last : List Char := []
  /-- The line breaks of the empty lines after it. -/
  empty : List Char := []
  /-- Whether the last line begins with a blank. -/
  startsBlank : Bool := false

/-- What stands between the last line of a block and the next. In a folded block a line break
folds into a space or is dropped, unless it stands beside a line that begins with a blank. -/
def BlockText.joint (b : BlockText) (literal nextBlank : Bool) : List Char :=
  if !literal && b.last = ['\n'] && !b.startsBlank && !nextBlank then
    if b.empty.isEmpty then [' '] else b.empty
  else b.last ++ b.empty

/-- The lines of a block at its indent. -/
def blockLines? (literal : Bool) (indent : Nat) :
    Nat → BlockText → Cursor → Option (BlockText × Cursor)
  | 0, _, _ => none
  | fuel + 1, b, c => do
    if c.column ≠ indent || c.atEnd then some (b, c)
    else
      let blank := c.peek.any isGap
      let (line, c) := c.takeWhile fun a => !isBreak a
      let text := line.reverse ++ (b.joint literal blank).reverse ++ b.text
      let (last, c) := match c.lineBreak? with
        | some (a, c) => ([a], c)
        | none => ([], c)
      let (empty, _, c) ← emptyLines? (some indent) (c.rest.length + 1) [] 0 c
      blockLines? literal indent fuel { text, last, empty, startsBlank := blank } c

/-- A block, which begins with its mark. Its lines are indented by what its head says beyond the
collection around it, or else as the first of them, and at least to `column`. -/
def block? (column : Nat) (c : Cursor) : Option (String × Cursor) := do
  let literal := c.sees '|'
  let (head, c) ← blockHead? (c.skip 1)
  let given := head.indent.map fun n => (column - 1) + n
  let (empty, widest, c) ← emptyLines? given (c.rest.length + 1) [] 0 c
  let indent := given.getD (max widest (max column 1))
  let (b, c) ← blockLines? literal indent (c.rest.length + 1) { empty } c
  let ending := match head.chomp with
    | .strip => []
    | .clip => b.last
    | .keep => b.last ++ b.empty
  some (String.ofList (b.text.reverse ++ ending), c)

end Yaml

end CommandDesk
