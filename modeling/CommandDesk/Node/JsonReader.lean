import CommandDesk.Node.Basic
import CommandDesk.Decimal.Reader

/-!
# Reading JSON

A reader for JSON texts. Whole numbers and floating-point numbers are kept
apart: a number is whole when it is written with digits only and fits 64 bits,
signed or unsigned. Of several entries with one key the last counts. Documents
are nested at most 127 deep.
-/

namespace CommandDesk

namespace Json

open Decimal

/-- Drop the white space of the format. -/
def skipSpace (s : List Char) : List Char :=
  s.dropWhile fun c => c = ' ' || c = '\n' || c = '\t' || c = '\r'

/-- The value of four hexadecimal digits, and what follows them. -/
def hex4? : List Char → Option (Nat × List Char)
  | a :: b :: c :: d :: s => (natIn? 16 [a, b, c, d]).map (·, s)
  | _ => none

/-- The character that the letter after a backslash stands for. -/
def unescape? : Char → Option Char
  | '"' => some '"'
  | '\\' => some '\\'
  | '/' => some '/'
  | 'b' => some '\x08'
  | 'f' => some '\x0c'
  | 'n' => some '\n'
  | 'r' => some '\r'
  | 't' => some '\t'
  | _ => none

/-- The character whose escape starts with the unit `u`, given what follows the unit. Two halves
of a pair stand for one character, and neither may stand alone. -/
def fromUnit? (u : Nat) (s : List Char) : Option (Char × List Char) :=
  if 0xD800 ≤ u && u < 0xDC00 then
    match s with
    | '\\' :: 'u' :: r => do
      let (v, r) ← hex4? r
      if 0xDC00 ≤ v && v < 0xE000 then
        some (Char.ofNat (0x10000 + (u - 0xD800) * 0x400 + (v - 0xDC00)), r)
      else none
    | _ => none
  else if 0xDC00 ≤ u && u < 0xE000 then none
  else some (Char.ofNat u, s)

/-- The characters up to the closing quote, added in reverse to `acc`, and what follows it. -/
def stringFrom? : Nat → List Char → List Char → Option (String × List Char)
  | 0, _, _ => none
  | _ + 1, _, [] => none
  | fuel + 1, acc, c :: s =>
    if c = '"' then some (String.ofList acc.reverse, s)
    else if c = '\\' then
      match s with
      | 'u' :: r => do
        let (u, r) ← hex4? r
        let (c, r) ← fromUnit? u r
        stringFrom? fuel (c :: acc) r
      | e :: r => do stringFrom? fuel ((← unescape? e) :: acc) r
      | [] => none
    else if c.toNat < 0x20 then none
    else stringFrom? fuel (c :: acc) s

/-- A string after its opening quote. -/
def string? (s : List Char) : Option (String × List Char) := stringFrom? (s.length + 1) [] s

/-- The value of a number with this sign, whole part, and what was written after it. -/
def numberOf? (negative : Bool) (whole fraction : List Char) (exponent : Option Int) :
    Option Node := do
  let n ← nat? whole
  if fraction.isEmpty && exponent.isNone && !(negative && n == 0)
      && (if negative then n ≤ UInt64.size / 2 else n < UInt64.size) then
    some (.int (if negative then -(n : Int) else n))
  else
    let digits ← nat? (whole ++ fraction)
    let x := nearest negative digits (exponent.getD 0 - (fraction.length : Int))
    if x.isInf then none else some (.num x)

/-- An exponent, if one follows. -/
def exponentPart? : List Char → Option (Option Int × List Char)
  | [] => some (none, [])
  | e :: s =>
    if e = 'e' || e = 'E' then
      let (negative, r) := splitSign s
      let (ds, r) := takeDigits r
      (nat? ds).map fun n => (some (if negative then -(n : Int) else (n : Int)), r)
    else some (none, e :: s)

/-- A number, and what follows it. -/
def number? (s : List Char) : Option (Node × List Char) := do
  let (negative, body) := match s with
    | '-' :: r => (true, r)
    | r => (false, r)
  let (whole, rest) := takeDigits body
  if whole.isEmpty || (whole.length > 1 && whole.head? = some '0') then none
  else
    let (fraction, rest) ← match rest with
      | '.' :: r =>
        let (ds, r) := takeDigits r
        if ds.isEmpty then none else some (ds, r)
      | r => some ([], r)
    let (exponent, rest) ← exponentPart? rest
    some (← numberOf? negative whole fraction exponent, rest)

/-- Drop a word that must stand here. -/
def word? (w : List Char) (n : Node) (s : List Char) : Option (Node × List Char) :=
  if w.isPrefixOf s then some (n, s.drop w.length) else none

mutual

/-- A value at a depth that may be nested `depth` further, and what follows it. -/
def value? : Nat → Nat → List Char → Option (Node × List Char)
  | 0, _, _ => none
  | fuel + 1, depth, s =>
    match skipSpace s with
    | [] => none
    | '"' :: r => (string? r).map fun (t, r) => (.text t, r)
    | '[' :: r =>
      if depth ≤ 1 then none
      else match skipSpace r with
        | ']' :: r => some (.list [], r)
        | r => items? fuel (depth - 1) [] r
    | '{' :: r =>
      if depth ≤ 1 then none
      else match skipSpace r with
        | '}' :: r => some (.dict [], r)
        | r => entries? fuel (depth - 1) [] r
    | 't' :: r => word? "rue".toList (.flag true) r
    | 'f' :: r => word? "alse".toList (.flag false) r
    | 'n' :: r => word? "ull".toList .null r
    | r => number? r

/-- The items of a list after those in `acc`, up to its end. -/
def items? : Nat → Nat → List Node → List Char → Option (Node × List Char)
  | 0, _, _, _ => none
  | fuel + 1, depth, acc, s => do
    let (v, r) ← value? fuel depth s
    match skipSpace r with
    | ',' :: r => items? fuel depth (v :: acc) r
    | ']' :: r => some (.list (v :: acc).reverse, r)
    | _ => none

/-- The entries of a dictionary after those in `acc`, up to its end. -/
def entries? : Nat → Nat → List (String × Node) → List Char → Option (Node × List Char)
  | 0, _, _, _ => none
  | fuel + 1, depth, acc, s =>
    match skipSpace s with
    | '"' :: r => do
      let (key, r) ← string? r
      match skipSpace r with
      | ':' :: r =>
        let (v, r) ← value? fuel depth r
        let acc := Node.setKey acc key v
        match skipSpace r with
        | ',' :: r => entries? fuel depth acc r
        | '}' :: r => some (.dict acc, r)
        | _ => none
      | _ => none
    | _ => none

end

/-- Read a JSON text. -/
def parse? (s : String) : Option Node := do
  let cs := s.toList
  let (v, r) ← value? (2 * cs.length + 2) 128 cs
  if (skipSpace r).isEmpty then some v else none

end Json

end CommandDesk
