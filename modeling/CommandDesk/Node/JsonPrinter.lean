import CommandDesk.Node.Basic
import CommandDesk.Decimal.Notation

/-!
# Writing JSON

A compact form on one line, and an indented form with two spaces for each
level. What is no finite number is written as null.
-/

namespace CommandDesk

/-- Numbers in documents: positional from 0.00001 up to below 10^16, and a whole number keeps a
point and a zero. -/
def Decimal.inDocuments : Decimal.Notation where
  plainFrom := -5
  plainBelow := 16
  pointZero := true
  tiesUp := false
  nan := ".nan"
  infinity := ".inf"

namespace Json

/-- A digit of a hexadecimal number, in lowercase. -/
def hexDigit (n : Nat) : Char := (Nat.digitChar n)

/-- How a character is written between quotes. -/
def escape (c : Char) : List Char :=
  if c = '"' then ['\\', '"']
  else if c = '\\' then ['\\', '\\']
  else if c = '\n' then ['\\', 'n']
  else if c = '\r' then ['\\', 'r']
  else if c = '\t' then ['\\', 't']
  else if c = '\x08' then ['\\', 'b']
  else if c = '\x0c' then ['\\', 'f']
  else if c.toNat < 0x20 then
    ['\\', 'u', '0', '0', hexDigit (c.toNat / 16), hexDigit (c.toNat % 16)]
  else [c]

/-- A text between quotes. -/
def quoted (s : String) : String := String.ofList ('"' :: s.toList.flatMap escape ++ ['"'])

/-- A value that is neither a list nor a dictionary. -/
def scalar : Node → String
  | .flag b => if b then "true" else "false"
  | .int i => if i < 0 then "-" ++ String.ofList (Decimal.natText i.natAbs)
    else String.ofList (Decimal.natText i.natAbs)
  | .num x => if x.isFinite then Decimal.inDocuments.render x else "null"
  | .text s | .bare s => quoted s
  | _ => "null"

mutual

/-- The value on one line, without spaces. -/
def compact : Node → String
  | .list items => "[" ++ compactItems items ++ "]"
  | .dict entries => "\x7b" ++ compactEntries entries ++ "\x7d"
  | n => scalar n

/-- Items between commas. -/
def compactItems : List Node → String
  | [] => ""
  | [n] => compact n
  | n :: ns => compact n ++ "," ++ compactItems ns

/-- Entries between commas. -/
def compactEntries : List (String × Node) → String
  | [] => ""
  | [(k, n)] => quoted k ++ ":" ++ compact n
  | (k, n) :: es => quoted k ++ ":" ++ compact n ++ "," ++ compactEntries es

end

/-- A line break and the indent of a level. -/
def newLine (level : Nat) : String := String.ofList ('\n' :: List.replicate (2 * level) ' ')

mutual

/-- The value on several lines, at a level of indentation. -/
def prettyAt (level : Nat) : Node → String
  | .list [] => "[]"
  | .dict [] => "\x7b\x7d"
  | .list items => "[" ++ prettyItems (level + 1) items ++ newLine level ++ "]"
  | .dict entries => "\x7b" ++ prettyEntries (level + 1) entries ++ newLine level ++ "\x7d"
  | n => scalar n

/-- Items on lines of their own. -/
def prettyItems (level : Nat) : List Node → String
  | [] => ""
  | [n] => newLine level ++ prettyAt level n
  | n :: ns => newLine level ++ prettyAt level n ++ "," ++ prettyItems level ns

/-- Entries on lines of their own. -/
def prettyEntries (level : Nat) : List (String × Node) → String
  | [] => ""
  | [(k, n)] => newLine level ++ quoted k ++ ": " ++ prettyAt level n
  | (k, n) :: es =>
    newLine level ++ quoted k ++ ": " ++ prettyAt level n ++ "," ++ prettyEntries level es

end

/-- The value on several lines. -/
def pretty (n : Node) : String := prettyAt 0 n

end Json

end CommandDesk
