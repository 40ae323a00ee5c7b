import CommandDesk.Decimal.Shortest

/-!
# Writing numbers

How a floating-point number becomes text: with the fewest digits that identify
it, laid out by a `Notation`, or with a fixed number of places.
-/

namespace CommandDesk

namespace Decimal

/-- The decimal digits of a natural number. -/
def natText (n : Nat) : List Char := Nat.toDigits 10 n

/-- A natural number in decimal digits. -/
def natString (n : Nat) : String := String.ofList (natText n)

/-- How the digits of a number are laid out. -/
structure Notation where
  /-- Positional from this exponent of the leading digit on. -/
  plainFrom : Int
  /-- Positional below this exponent of the leading digit. -/
  plainBelow : Int
  /-- Whether a whole number keeps a point and a zero. -/
  pointZero : Bool
  /-- Whether of two equally near digits the upper one is taken, not the even one. -/
  tiesUp : Bool
  nan : String
  infinity : String

/-- Positional digits for `digits · 10 ^ exp`. -/
def positional (pointZero : Bool) (d : Scaled) : List Char :=
  let ds := natText d.digits
  if 0 ≤ d.exp then
    ds ++ List.replicate d.exp.toNat '0' ++ if pointZero then ['.', '0'] else []
  else
    let places := (-d.exp).toNat
    let padded := List.replicate (places + 1 - ds.length) '0' ++ ds
    padded.take (padded.length - places) ++ ['.'] ++ padded.drop (padded.length - places)

/-- Digits with an exponent, for `digits · 10 ^ exp`. -/
def scientific (d : Scaled) : List Char :=
  let ds := natText d.digits
  let e := d.exp + (ds.length : Int) - 1
  let mant := match ds with
    | [] => []
    | [c] => [c]
    | c :: cs => c :: '.' :: cs
  let sign := if e < 0 then ['-'] else []
  mant ++ ['e'] ++ sign ++ natText e.natAbs

/-- Whether the sign bit is set. -/
def isNegative (x : Float) : Bool := x.toBits >>> 63 == 1

/-- The text of a number in a notation. -/
def Notation.render (N : Notation) (x : Float) : String :=
  if x.isNaN then N.nan
  else
    let sign := if isNegative x then ['-'] else []
    if x.isInf then String.ofList (sign ++ N.infinity.toList)
    else
      let d := (Binary.ofBits x.toBits).select N.tiesUp
      let lead := d.exp + ((natText d.digits).length : Int) - 1
      let body := if d.digits == 0 || (N.plainFrom ≤ lead && lead < N.plainBelow)
        then positional N.pointZero d else scientific d
      String.ofList (sign ++ body)

/-- Numbers in messages: always positional, and no point in a whole number. -/
def inMessages : Notation where
  plainFrom := -400
  plainBelow := 400
  pointZero := false
  tiesUp := true
  nan := "NaN"
  infinity := "inf"

/-- The quotient rounded to the nearest whole number, a half going to the even one. -/
def roundDiv (num den : Nat) : Nat :=
  let q := num / den
  match compare (2 * (num % den)) den with
  | .lt => q
  | .gt => q + 1
  | .eq => if q % 2 == 0 then q else q + 1

/-- The text of a number with a fixed number of decimal places. The exact value is rounded, a
half going to the even neighbour. -/
def fixed (places : Nat) (x : Float) : String :=
  if x.isNaN then "NaN"
  else
    let sign := if isNegative x then ['-'] else []
    if x.isInf then String.ofList (sign ++ "inf".toList)
    else
      let b := Binary.ofBits x.toBits
      let n := roundDiv (b.mant * Nat.pow 2 b.exp.toNat * Nat.pow 10 places)
        (Nat.pow 2 (-b.exp).toNat)
      String.ofList (sign ++ positional false ⟨n, -(places : Int)⟩)

end Decimal

end CommandDesk
