import CommandDesk.Text.Cut

/-!
# Reading numbers

The grammars of whole and decimal numbers in text, and the nearest
floating-point number to a decimal.
-/

namespace CommandDesk

namespace Decimal

/-- The value of a decimal digit. -/
def digit? (c : Char) : Option Nat :=
  if '0' ≤ c && c ≤ '9' then some (c.toNat - 48) else none

/-- The value of a digit in a base up to sixteen. -/
def digitIn? (base : Nat) (c : Char) : Option Nat :=
  let n := c.toNat
  let v :=
    if 48 ≤ n && n ≤ 57 then some (n - 48)
    else if 97 ≤ n && n ≤ 102 then some (n - 87)
    else if 65 ≤ n && n ≤ 70 then some (n - 55)
    else none
  v.filter (· < base)

/-- The value of a list of digits that follows digits of value `acc`. -/
def digitsFrom? (base : Nat) (acc : Nat) : List Char → Option Nat
  | [] => some acc
  | c :: s => match digitIn? base c with
    | some d => digitsFrom? base (acc * base + d) s
    | none => none

/-- The value of a non-empty list of digits in a base. -/
def natIn? (base : Nat) : List Char → Option Nat
  | [] => none
  | c :: s => digitsFrom? base 0 (c :: s)

/-- The value of a non-empty list of decimal digits. -/
def nat? (s : List Char) : Option Nat := natIn? 10 s

/-- Whether every character is a decimal digit. -/
def allDigits (s : List Char) : Bool := s.all fun c => (digit? c).isSome

/-- The initial decimal digits, and what follows them. -/
def takeDigits (s : List Char) : List Char × List Char :=
  (s.takeWhile fun c => (digit? c).isSome, s.dropWhile fun c => (digit? c).isSome)

/-- The floating-point number nearest to `digits · 10 ^ exp`. -/
def nearest (negative : Bool) (digits : Nat) (exp : Int) : Float :=
  let size := (Nat.toDigits 10 digits).length
  let magnitude : Float :=
    if digits == 0 || size + exp < -400 then 0
    else if 400 < size + exp then Float.ofBits 0x7FF0000000000000
    else Float.ofScientific digits (exp < 0) exp.natAbs
  if negative then -magnitude else magnitude

/-- An exponent mark with a whole number, or nothing. -/
def exponent? : List Char → Option Int
  | [] => some 0
  | e :: s =>
    if e = 'e' || e = 'E' then
      match s with
      | '-' :: ds => (nat? ds).map fun n => -(n : Int)
      | '+' :: ds => (nat? ds).map fun n => (n : Int)
      | ds => (nat? ds).map fun n => (n : Int)
    else none

/-- A decimal without its sign: digits, a point with digits, and an exponent, of which there is
at least one digit. -/
def unsigned? (negative : Bool) (s : List Char) : Option Float :=
  let (whole, rest) := takeDigits s
  let (fraction, rest) := match rest with
    | '.' :: r => takeDigits r
    | r => ([], r)
  if whole.isEmpty && fraction.isEmpty then none
  else do
    let e ← exponent? rest
    let digits ← nat? (whole ++ fraction)
    some (nearest negative digits (e - (fraction.length : Int)))

/-- A sign and what follows it. -/
def splitSign : List Char → Bool × List Char
  | '-' :: s => (true, s)
  | '+' :: s => (false, s)
  | s => (false, s)

/-- Not a number. -/
def nan : Float := Float.ofBits 0x7FF8000000000000

/-- Positive infinity. -/
def infinity : Float := Float.ofBits 0x7FF0000000000000

/-- A number as a person writes it: a decimal, `inf`, `infinity` or `nan` in any case, with a
sign or without. -/
def float? (s : List Char) : Option Float :=
  let (negative, body) := splitSign s
  let word := body.map Char.toLower
  if word = "inf".toList || word = "infinity".toList then
    some (if negative then -infinity else infinity)
  else if word = "nan".toList then some nan
  else unsigned? negative body

/-- A whole number from `low` to `high`, with a sign or without; a minus sign is refused when
nothing below zero is asked for. -/
def int? (low high : Int) (s : List Char) : Option Int := do
  let (negative, body) := splitSign s
  if negative && 0 ≤ low then none
  else
    let n ← nat? body
    let v : Int := if negative then -(n : Int) else n
    if low ≤ v && v ≤ high then some v else none

end Decimal

end CommandDesk
