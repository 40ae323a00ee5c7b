/-!
# The fewest digits that read back

A finite binary number stands for an interval of reals, those that round to it.
`Binary.select` finds a decimal in that interval with as few digits as
possible, and of those the one nearest to the number, in exact integer
arithmetic.
-/

namespace CommandDesk

namespace Decimal

/-- The number `mant · 2 ^ exp`. -/
structure Binary where
  mant : Nat
  exp : Int
  /-- Whether the gap below the number is half the gap above it. -/
  narrowBelow : Bool

/-- The magnitude of the finite number that has these bits. -/
def Binary.ofBits (bits : UInt64) : Binary :=
  let e := ((bits >>> 52) &&& 0x7FF).toNat
  let f := (bits &&& 0xFFFFFFFFFFFFF).toNat
  if e == 0 then ⟨f, -1074, false⟩ else ⟨Nat.pow 2 52 + f, (e : Int) - 1075, f == 0 && e > 1⟩

/-- The number `digits · 10 ^ exp`. -/
structure Scaled where
  digits : Nat
  exp : Int
  deriving Repr, DecidableEq

/-- Compare `a · 10 ^ i` with `n · 2 ^ j`. -/
def compareScaled (a : Nat) (i : Int) (n : Nat) (j : Int) : Ordering :=
  compare (a * Nat.pow 10 i.toNat * Nat.pow 2 (-j).toNat)
    (n * Nat.pow 2 j.toNat * Nat.pow 10 (-i).toNat)

/-- Whether the decimal rounds to the number: it lies between the halfway points to the two
neighbours, and may be one of them when the mantissa is even. -/
def Binary.readsBack (x : Binary) (d : Scaled) : Bool :=
  let low := if x.narrowBelow then 4 * x.mant - 1 else 4 * x.mant - 2
  let high := 4 * x.mant + 2
  let ends := x.mant % 2 == 0
  let below := compareScaled d.digits d.exp low (x.exp - 2)
  let above := compareScaled d.digits d.exp high (x.exp - 2)
  (below == .gt || (ends && below == .eq)) && (above == .lt || (ends && above == .eq))

/-- The least `k` with the number below `10 ^ k`, found from its binary length. -/
def Binary.scale (x : Binary) : Int :=
  let guess := Int.fdiv (((Nat.log2 x.mant : Nat) + x.exp) * 30103) 100000
  ([guess, guess + 1, guess + 2].find? fun k => compareScaled 1 k x.mant x.exp == .gt).getD
    (guess + 3)

/-- The number divided by `10 ^ g`, rounded down. -/
def Binary.onGrid (x : Binary) (g : Int) : Nat :=
  x.mant * Nat.pow 2 x.exp.toNat * Nat.pow 10 (-g).toNat
    / (Nat.pow 2 (-x.exp).toNat * Nat.pow 10 g.toNat)

/-- The decimal with steps of `10 ^ g` that reads back and is nearest to the number, if one
does. Halfway between two the upper one is taken if `tiesUp`, else the even one. -/
def Binary.nearestOn (x : Binary) (tiesUp : Bool) (g : Int) : Option Scaled :=
  let low : Scaled := ⟨x.onGrid g, g⟩
  let high : Scaled := ⟨low.digits + 1, g⟩
  match x.readsBack low, x.readsBack high with
  | true, false => some low
  | false, true => some high
  | false, false => none
  | true, true =>
    match compareScaled (low.digits + high.digits) g (2 * x.mant) x.exp with
    | .gt => some low
    | .lt => some high
    | .eq => if tiesUp || low.digits % 2 == 1 then some high else some low

/-- The exact value of the number as a decimal. -/
def Binary.exact (x : Binary) : Scaled :=
  ⟨x.mant * Nat.pow 2 x.exp.toNat * Nat.pow 5 (-x.exp).toNat,
    if x.exp < 0 then x.exp else 0⟩

/-- Drop zeros at the end of the digits, at most `fuel` of them. -/
def Scaled.strip : Nat → Scaled → Scaled
  | 0, d => d
  | fuel + 1, d =>
    if d.digits != 0 && d.digits % 10 == 0 then Scaled.strip fuel ⟨d.digits / 10, d.exp + 1⟩ else d

/-- The fewest digits that read back. Zero has the single digit 0. -/
def Binary.select (x : Binary) (tiesUp : Bool) : Scaled :=
  if x.mant == 0 then ⟨0, 0⟩
  else
    let k := x.scale
    let found := (List.range 17).findSome? fun n => x.nearestOn tiesUp (k - (n + 1 : Nat))
    let d := found.getD x.exact
    d.strip 20

end Decimal

end CommandDesk
