import CommandDesk.Decimal.Notation
import CommandDesk.Node.Codec

/-!
# Parameter values

A parameter of a command is a switch, a whole number, a number or a text. In a
document the value's own form tells which.
-/

namespace CommandDesk

/-- The value of a parameter. -/
inductive Param where
  | flag (b : Bool)
  | int (i : Int64)
  | num (x : Float)
  | str (s : String)
  deriving DecidableEq, BEq

namespace Param

/-- A whole number in decimal digits. -/
def intText (i : Int) : String :=
  String.ofList ((if i < 0 then ['-'] else []) ++ Decimal.natText i.natAbs)

/-- The value as it is printed. -/
def text : Param → String
  | flag b => if b then "true" else "false"
  | int i => intText i.toInt
  | num x => Decimal.inMessages.render x
  | str s => s

instance : Encode Param where
  encode
    | flag b => .flag b
    | int i => .int i.toInt
    | num x => .num x
    | str s => .text s

/-- A whole number outside the range of 64 bits with a sign is read as a number. -/
instance : Decode Param where
  decode?
    | .flag b => some (flag b)
    | .int i =>
      if Int64.minValue.toInt ≤ i && i ≤ Int64.maxValue.toInt then some (int (Int64.ofInt i))
      else (decode? (Node.int i)).map num
    | .num x => some (num x)
    | .text s => some (str s)
    | _ => none

end Param

end CommandDesk
