import CommandDesk.Decimal.Notation

/-!
# Grades

Confidences, weights, thresholds and percentages are grades. Everything that
computes with them is written over the class `Grade`, and has two readings: over
floating-point numbers, which is the one that runs, and over exact rationals,
in which its laws can be stated without rounding.
-/

namespace CommandDesk

/-- Numbers that can serve as confidences, weights, thresholds and percentages. -/
class Grade (α : Type) extends Sub α, Mul α, Div α, LT α, LE α, OfScientific α where
  decLt : DecidableLT α
  decLe : DecidableLE α
  /-- The number nearest to a natural number. -/
  ofNat : Nat → α
  /-- Whether this is a number at all. -/
  isNumber : α → Bool
  /-- The order by which grades are ranked, a total one. -/
  rankLe : α → α → Bool
  /-- The whole part, at least zero and at most the largest word. -/
  whole : α → UInt32
  /-- The text with as many digits as are needed. -/
  text : α → String
  /-- The text with a fixed number of decimal places. -/
  fixed : Nat → α → String

namespace Grade

instance {α : Type} [Grade α] (a b : α) : Decidable (a < b) := decLt a b

instance {α : Type} [Grade α] (a b : α) : Decidable (a ≤ b) := decLe a b

/-! ## Floating-point grades -/

/-- The place of a floating-point number in the total order: negative numbers before positive
ones, minus zero before zero. -/
def floatRank (x : Float) : Int :=
  let magnitude : Int := (x.toBits &&& 0x7FFFFFFFFFFFFFFF).toNat
  if Decimal.isNegative x then -1 - magnitude else magnitude

instance : Grade Float where
  decLt := fun a b => inferInstanceAs (Decidable (a < b))
  decLe := fun a b => inferInstanceAs (Decidable (a ≤ b))
  ofNat := fun n => Float.ofScientific n false 0
  isNumber := fun x => !x.isNaN
  rankLe := fun a b => floatRank a ≤ floatRank b
  whole := Float.toUInt32
  text := Decimal.inMessages.render
  fixed := Decimal.fixed

/-! ## Exact grades -/

/-- The sign of a rational as text. -/
def ratSign (q : Rat) : List Char := if q.num < 0 then ['-'] else []

/-- A rational as a whole number or a fraction. -/
def ratText (q : Rat) : String :=
  let whole := ratSign q ++ Decimal.natText q.num.natAbs
  String.ofList (if q.den = 1 then whole else whole ++ '/' :: Decimal.natText q.den)

/-- A rational with a fixed number of decimal places, a half going to the even neighbour. -/
def ratFixed (places : Nat) (q : Rat) : String :=
  let n := Decimal.roundDiv (q.num.natAbs * Nat.pow 10 places) q.den
  String.ofList (ratSign q ++ Decimal.positional false ⟨n, -(places : Int)⟩)

instance : Grade Rat where
  decLt := fun a b => inferInstanceAs (Decidable (a < b))
  decLe := fun a b => inferInstanceAs (Decidable (a ≤ b))
  ofNat := fun n => (n : Rat)
  isNumber := fun _ => true
  rankLe := fun a b => a ≤ b
  whole := fun q => UInt32.ofNat (min q.floor.toNat (UInt32.size - 1))
  text := ratText
  fixed := ratFixed

variable {α : Type} [Grade α]

/-- The larger of two grades; the first one where they do not compare. -/
def larger (a b : α) : α := if a < b then b else a

/-- Keep a grade between zero and one hundred; what is no number becomes zero. -/
def clamp (w : α) : α :=
  if !isNumber w then 0.0 else if w < 0.0 then 0.0 else if 100.0 < w then 100.0 else w

/-- Insert before the first entry that is not ranked above the new one. -/
def insertRanked {β : Type} (grade : β → α) (x : β) : List β → List β
  | [] => [x]
  | y :: ys =>
    if rankLe (grade y) (grade x) then x :: y :: ys else y :: insertRanked grade x ys

/-- Order by descending grade; entries of equal grade keep their order. -/
def ranked {β : Type} (grade : β → α) (xs : List β) : List β :=
  xs.foldr (insertRanked grade) []

end Grade

end CommandDesk
