import CommandDesk.Decimal.Reader

/-!
# Counts

Natural numbers in decimal digits as a person types them, with the reason where
one is refused.
-/

namespace CommandDesk

namespace Decimal

/-- Why a count is refused. -/
inductive CountError where
  | noDigits
  | notADigit
  | tooLarge
  deriving DecidableEq, Repr

/-- The wording. -/
def CountError.message : CountError → String
  | noDigits => "cannot parse integer from empty string"
  | notADigit => "invalid digit found in string"
  | tooLarge => "number too large to fit in target type"

/-- The value of digits that follow digits of value `acc`. It must stay below `limit`; the first
character that is no digit, or makes the value too large, decides. -/
def countFrom (limit acc : Nat) : List Char → Except CountError Nat
  | [] => .ok acc
  | c :: s => match digit? c with
    | none => .error .notADigit
    | some d => if acc * 10 + d < limit then countFrom limit (acc * 10 + d) s else .error .tooLarge

/-- A count below `limit`. A plus sign may stand before it. -/
def count (limit : Nat) (s : String) : Except CountError Nat :=
  match s.toList with
  | [] => .error .noDigits
  | ['+'] => .error .notADigit
  | '+' :: ds => countFrom limit 0 ds
  | ds => countFrom limit 0 ds

end Decimal

end CommandDesk
