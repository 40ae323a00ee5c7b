import CommandDesk.Yaml.Basic
import CommandDesk.Text.Cut

/-!
# Places in a document

A `Cursor` is a place in a document: what follows there, and where it is. Lines
and columns decide what belongs to what, so every step keeps count of them.
-/

namespace CommandDesk

namespace Yaml

/-- A place in a document. -/
structure Cursor where
  rest : List Char
  /-- How many characters stand before. -/
  index : Nat := 0
  line : Nat := 0
  column : Nat := 0

namespace Cursor

/-- The next character. -/
def peek (c : Cursor) : Option Char := c.rest.head?

/-- The character after the next one. -/
def peekSecond (c : Cursor) : Option Char := c.rest[1]?

/-- Whether nothing follows. -/
def atEnd (c : Cursor) : Bool := c.rest.isEmpty

/-- Whether the next character is `a`. -/
def sees (c : Cursor) (a : Char) : Bool := c.peek = some a

/-- Whether a word ends here. -/
def endsWord (c : Cursor) : Bool := Yaml.endsWord c.peek

/-- Whether a line ends here. -/
def endsLine (c : Cursor) : Bool := c.peek.all isBreak

/-- Go past `n` characters of the line. -/
def skip (c : Cursor) (n : Nat) : Cursor :=
  { c with rest := c.rest.drop n, index := c.index + n, column := c.column + n }

/-- The characters from here that have a property, and the place after them. None of them may
break a line. -/
def takeWhile (c : Cursor) (p : Char → Bool) : List Char × Cursor :=
  let s := c.rest.takeWhile p
  (s, c.skip s.length)

/-- Go past the characters that have a property. None of them may break a line. -/
def skipWhile (c : Cursor) (p : Char → Bool) : Cursor := (c.takeWhile p).2

/-- Go past a comment, if one begins here. -/
def skipComment (c : Cursor) : Cursor :=
  if c.sees '#' then c.skipWhile fun a => !isBreak a else c

/-- The start of the next line, after a line break of `n` characters. -/
def nextLine (c : Cursor) (n : Nat) : Cursor :=
  { rest := c.rest.drop n, index := c.index + n, line := c.line + 1, column := 0 }

/-- The line break here as it counts in text, and the place after it. -/
def lineBreak? (c : Cursor) : Option (Char × Cursor) :=
  match c.rest with
  | '\r' :: '\n' :: _ => some ('\n', c.nextLine 2)
  | a :: _ =>
    if a = '\u2028' || a = '\u2029' then some (a, c.nextLine 1)
    else if isBreak a then some ('\n', c.nextLine 1)
    else none
  | [] => none

/-- Whether a line with three of these characters as its first word begins here. -/
def marks (c : Cursor) (a : Char) : Bool :=
  c.column = 0 && c.rest.take 3 = [a, a, a] && Yaml.endsWord c.rest[3]?

/-- Whether a line that begins or ends a document begins here. -/
def marksDocument (c : Cursor) : Bool := c.marks '-' || c.marks '.'

end Cursor

/-! ## Line folding -/

/-- What stands between two words of a scalar: blanks, or line breaks. -/
structure Gap where
  blanks : List Char := []
  /-- What the first line break counts as, once there is one. -/
  first : Option (List Char) := none
  /-- The line breaks after the first. -/
  more : List Char := []

namespace Gap

/-- Whether the gap holds a line break. -/
def isBroken (g : Gap) : Bool := g.first.isSome

/-- What the gap counts as. A single line break folds into a space, and the first of several is
dropped. -/
def text (g : Gap) : List Char :=
  match g.first with
  | none => g.blanks
  | some ['\n'] => if g.more.isEmpty then [' '] else g.more
  | some s => s ++ g.more

/-- Add a line break. -/
def addBreak (g : Gap) (b : Char) : Gap :=
  match g.first with
  | none => { first := some [b] }
  | some _ => { g with more := g.more ++ [b] }

/-- The gap that begins with `g` and goes on here, and the place after it. A tab at the start of a
line must stand at least at `column`. -/
def scan? (column : Nat) : Nat → Gap → Cursor → Option (Gap × Cursor)
  | 0, _, _ => none
  | fuel + 1, g, c =>
    match c.lineBreak? with
    | some (b, c) => scan? column fuel (g.addBreak b) c
    | none =>
      match c.peek with
      | some a =>
        if !isGap a then some (g, c)
        else if !g.isBroken then scan? column fuel { g with blanks := g.blanks ++ [a] } (c.skip 1)
        else if a = '\t' && c.column < column then none
        else scan? column fuel g (c.skip 1)
      | none => some (g, c)

end Gap

/-- The gap that begins with `g` and goes on at a place, and the place after it. -/
def Cursor.gap? (c : Cursor) (column : Nat) (g : Gap) : Option (Gap × Cursor) :=
  Gap.scan? column (c.rest.length + 1) g c

end Yaml

end CommandDesk
