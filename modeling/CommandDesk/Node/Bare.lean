import CommandDesk.Node.Basic
import CommandDesk.Decimal.Reader

/-!
# Bare scalars

What a scalar without quotes means to a reader that asks for nothing, for a
truth value, for a whole number or for a number. As a text it means itself.
-/

namespace CommandDesk

namespace Bare

open Decimal

/-- Whether the scalar is one of the words for nothing. -/
def isNullWord (s : String) : Bool := s = "~" || s = "null" || s = "Null" || s = "NULL"

/-- The truth value that the scalar names. -/
def flag? (s : String) : Option Bool :=
  if s = "true" || s = "True" || s = "TRUE" then some true
  else if s = "false" || s = "False" || s = "FALSE" then some false
  else none

/-- Whether these are digits with a needless zero in front, which make no number. -/
def isPaddedDigits (s : List Char) : Bool :=
  match s with
  | '-' :: r | '+' :: r => padded r
  | r => padded r
where
  /-- A zero before other digits. -/
  padded : List Char → Bool
    | '0' :: c :: r => allDigits (c :: r)
    | _ => false

/-- The digits after a mark of the base, where there is one. -/
def based? : List Char → Option Nat
  | '0' :: 'x' :: r => natIn? 16 r
  | '0' :: 'o' :: r => natIn? 8 r
  | '0' :: 'b' :: r => natIn? 2 r
  | _ => none

/-- The whole number that the scalar writes, in base ten or with a mark of the base. A sign may
stand before it. -/
def int? (s : String) : Option Int :=
  let cs := s.toList
  let (negative, body) := splitSign cs
  match based? body with
  | some n => some (if negative then -(n : Int) else n)
  | none =>
    if isPaddedDigits cs then none
    else (nat? body).map fun n => if negative then -(n : Int) else n

/-- Whether a minus sign stands in front. -/
def hasMinus (s : String) : Bool := s.toList.head? = some '-'

/-- The number that the scalar writes. Infinities and what is not a number have words of their
own; a number too large for the format is none. -/
def float? (s : String) : Option Float :=
  if s = ".inf" || s = ".Inf" || s = ".INF" || s = "+.inf" || s = "+.Inf" || s = "+.INF" then
    some infinity
  else if s = "-.inf" || s = "-.Inf" || s = "-.INF" then some (-infinity)
  else if s = ".nan" || s = ".NaN" || s = ".NAN" then some nan
  else
    let (negative, body) := splitSign s.toList
    (unsigned? negative body).filter (·.isFinite)

/-- Whether the scalar means something other than itself to a reader that asks for nothing. Whole
numbers have at most 128 bits. -/
def hasMeaning (s : String) : Bool :=
  s = "" || isNullWord s || (flag? s).isSome
    || ((int? s).any fun i => -Int.pow 2 127 ≤ i && i < Int.pow 2 128)
    || isPaddedDigits s.toList || (float? s).isSome

end Bare

end CommandDesk
