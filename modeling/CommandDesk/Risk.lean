import CommandDesk.Worded

/-!
# Risk levels
-/

namespace CommandDesk

/-- How much harm a command can do. -/
inductive Risk where
  | low
  | medium
  | high
  | critical
  deriving DecidableEq, Repr, Inhabited

namespace Risk

instance : Worded Risk where
  all := [low, medium, high, critical]
  word
    | low => "low"
    | medium => "medium"
    | high => "high"
    | critical => "critical"

/-- Whether the level is high or critical. -/
def isHigh : Risk → Bool
  | high | critical => true
  | _ => false

/-- The place of the level, counted from the lowest. -/
def rank : Risk → Nat
  | low => 0
  | medium => 1
  | high => 2
  | critical => 3

/-- The level that a word names. -/
def parse (s : String) : Except Error Risk := Worded.parse "risk level" s

end Risk

end CommandDesk
