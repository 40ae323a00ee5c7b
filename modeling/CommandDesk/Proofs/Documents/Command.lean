import CommandDesk.Command.Basic
import CommandDesk.Proofs.Node.Json

/-!
# Commands read back

The value of a parameter is told by its own form: a number stays a number also
if it is whole, and a text stays a text whatever it spells.
-/

namespace CommandDesk

open Json (IsTree AllFinite)

/-! ## Parameters -/

/-- Whole numbers of 64 bits with a sign are in the range in which they are read. -/
theorem Param.decode?_int (i : Int64) :
    decode? (Node.int i.toInt) = some (Param.int i) := by
  have hrange : (decide (Int64.minValue.toInt ≤ i.toInt) &&
      decide (i.toInt ≤ Int64.maxValue.toInt)) = true := by
    rw [Bool.and_eq_true, decide_eq_true_eq, decide_eq_true_eq]
    exact ⟨Int64.minValue_le_toInt i, Int64.toInt_le i⟩
  unfold decode? instDecode
  dsimp only
  rw [if_pos hrange, Int64.ofInt_toInt]

instance : LawfulCodec Param where
  decode?_encode hT p := by
    cases p with
    | flag | num | str => exact decode?_leaf hT rfl rfl
    | int i => exact decode?_leaf hT rfl (Param.decode?_int i)

/-- The floating-point numbers in a parameter. -/
def Param.floats : Param → List Float
  | num x => [x]
  | flag _ | int _ | str _ => []

theorem Param.isTree_encode (p : Param) : IsTree (encode p) ↔ AllFinite p.floats := by
  cases p with
  | flag b => exact iff_of_true (.flag b) nofun
  | int i => exact iff_of_true (.int _) nofun
  | str s => exact iff_of_true (.text s) nofun
  | num x => exact (Json.isTree_float x).trans (by simp [floats])

/-! ## Commands -/

instance : LawfulCodec InputRef where
  decode?_encode hT r := by
    refine Record.read?_bind hT (by simp) (by simp) ?_
    simp [Record.required?_eq, hT]

instance : NonNull InputRef := ⟨fun hT _ => Record.isNull_ofFields hT⟩

instance : LawfulCodec Command where
  decode?_encode hT c := by
    refine Record.read?_bind hT (by simp) (by simp) ?_
    simp [Record.required?_eq, Record.defaulted?_eq, hT]

/-- The floating-point numbers in a command. -/
def Command.floats (c : Command) : List Float := c.params.entries.flatMap fun e => e.2.floats

theorem InputRef.isTree_encode (r : InputRef) : IsTree (encode r) := by
  refine Json.isTree_ofFields.2 ?_
  simp

theorem Command.isTree_encode (c : Command) : IsTree (encode c) ↔ AllFinite c.floats := by
  refine Json.isTree_ofFields.trans ?_
  simp [InputRef.isTree_encode, Param.isTree_encode, floats]

end CommandDesk
