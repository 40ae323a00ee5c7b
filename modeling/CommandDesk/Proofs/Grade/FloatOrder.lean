import CommandDesk.Grade
import Mathlib.Algebra.Order.Ring.Int
import Mathlib.Data.Nat.Cast.Order.Basic
import Mathlib.Data.Prod.Lex
import Mathlib.Order.Compare

/-!
# The order of floating-point numbers

What is no number compares with nothing. Every other floating-point number has
a place in a linear order (`place`): first by sign and size class, then by
exponent, then by mantissa. `<` and `≤` compare places (`lt_iff_place`,
`le_iff_place`), so they chain as they do in a linear order. What is clamped lies
in range, and what lies there is left as it is (`float_clamp_eq_self`).
-/

namespace CommandDesk

namespace Grade

open Float.Model (UnpackedFloat)

/-- Where a number stands: its class, its exponent and its mantissa, the last two reversed below
zero. -/
def place : UnpackedFloat → Option (ℤ ×ₗ ℤ ×ₗ ℤ)
  | .notANumber => none
  | .infinity .negative => some (toLex (-2, toLex (0, 0)))
  | .finite .negative m e _ => some (toLex (-1, toLex (-e, -(m : ℤ))))
  | .zero _ => some (toLex (0, toLex (0, 0)))
  | .finite .positive m e _ => some (toLex (1, toLex (e, (m : ℤ))))
  | .infinity .positive => some (toLex (2, toLex (0, 0)))

/-! ## Unpacked numbers -/

/-- Within a class, exponents are compared before mantissas. -/
theorem compares_toLex {s e e' m m' : ℤ} {o p : Ordering} (he : o.Compares e e')
    (hm : p.Compares m m') :
    (o.then p).Compares (toLex (s, toLex (e, m))) (toLex (s, toLex (e', m'))) := by
  cases o <;> cases p <;> simp_all [Ordering.then, Ordering.Compares, Prod.Lex.toLex_lt_toLex]

/-- **Numbers compare as their places do.** -/
theorem compare_eq_place (a b : UnpackedFloat) :
    a.compare b = (place a).bind fun x => (place b).map fun y => compare x y := by
  have hint : ∀ e e' : ℤ, (compare e e').Compares e e' := fun e e' => (compare_iff e e').1 rfl
  have hnat : ∀ m m' : ℕ, (compare m m').Compares (m : ℤ) (m' : ℤ) := fun m m' =>
    Nat.strictMono_cast.compares.2 ((compare_iff m m').1 rfl)
  have hneg : StrictAnti fun e : ℤ => -e := fun e e' h => neg_lt_neg h
  rcases a with (⟨⟨⟩⟩ | _ | ⟨⟨⟩⟩ | ⟨⟨⟩, m, e, _⟩) <;>
    rcases b with (⟨⟨⟩⟩ | _ | ⟨⟨⟩⟩ | ⟨⟨⟩, m', e', _⟩)
  -- only two numbers of one finite class leave anything to compute
  case finite.negative.finite.negative =>
    refine congrArg some ((compare_iff _ _).2 ?_).symm
    rw [Ordering.swap_then]
    exact compares_toLex (hneg.compares.2 (hint e e').swap) (hneg.compares.2 (hnat m m').swap)
  case finite.positive.finite.positive =>
    refine congrArg some ((compare_iff _ _).2 ?_).symm
    exact compares_toLex (hint e e') (hnat m m')
  all_goals rfl

/-- Only what is no number has no place. -/
theorem isSome_place (a : UnpackedFloat) : (place a).isSome = !a.isNaN := by
  rcases a with (⟨⟨⟩⟩ | _ | ⟨⟨⟩⟩ | ⟨⟨⟩, m, e, _⟩) <;> rfl

theorem lt_iff_place (a b : UnpackedFloat) :
    a.lt b = true ↔ ∃ x ∈ place a, ∃ y ∈ place b, x < y := by
  unfold UnpackedFloat.lt
  rw [compare_eq_place]
  cases place a <;> cases place b <;> simp [compare_lt_iff_lt]

theorem le_iff_place (a b : UnpackedFloat) :
    a.le b = true ↔ ∃ x ∈ place a, ∃ y ∈ place b, x ≤ y := by
  unfold UnpackedFloat.le
  rw [compare_eq_place]
  cases place a <;> cases place b <;> simp [Ordering.isLE_iff_ne_gt, compare_gt_iff_gt]

/-! ## Floating-point grades -/

variable {a b c : Float}

theorem float_lt_iff :
    a < b ↔ ∃ x ∈ place a.toModel.unpack, ∃ y ∈ place b.toModel.unpack, x < y := by
  rw [← lt_iff_place]
  exact decide_eq_true_iff

theorem float_le_iff :
    a ≤ b ↔ ∃ x ∈ place a.toModel.unpack, ∃ y ∈ place b.toModel.unpack, x ≤ y := by
  rw [← le_iff_place]
  exact decide_eq_true_iff

/-- **`<` and `≤` chain.** -/
theorem float_lt_of_lt_of_le (h : a < b) (h' : b ≤ c) : a < c := by
  obtain ⟨x, hx, y, hy, hxy⟩ := float_lt_iff.1 h
  obtain ⟨y', hy', z, hz, hyz⟩ := float_le_iff.1 h'
  obtain rfl : y = y' := Option.some.inj (hy.symm.trans hy')
  exact float_lt_iff.2 ⟨x, hx, z, hz, lt_of_lt_of_le hxy hyz⟩

theorem float_le_of_lt (h : a < b) : a ≤ b := by
  obtain ⟨x, hx, y, hy, hxy⟩ := float_lt_iff.1 h
  exact float_le_iff.2 ⟨x, hx, y, hy, le_of_lt hxy⟩

/-- Every number has a place. -/
theorem exists_place (ha : a.isNaN = false) : ∃ x, place a.toModel.unpack = some x := by
  have hnumber : a.toModel.unpack.isNaN = false := ha
  refine Option.isSome_iff_exists.1 ?_
  rw [isSome_place, hnumber]
  rfl

/-- What is compared with is a number. -/
theorem isNaN_of_float_le (h : a ≤ b) : b.isNaN = false := by
  obtain ⟨x, hx, y, hy, -⟩ := float_le_iff.1 h
  have hsome := isSome_place b.toModel.unpack
  rw [hy, Option.isSome_some, eq_comm, Bool.not_eq_true'] at hsome
  exact hsome

/-- **Of two numbers one is not above the other.** -/
theorem float_le_of_not_lt (ha : a.isNaN = false) (hb : b.isNaN = false) (h : ¬ a < b) : b ≤ a := by
  obtain ⟨x, hx⟩ := exists_place ha
  obtain ⟨y, hy⟩ := exists_place hb
  refine float_le_iff.2 ⟨y, hy, x, hx, le_of_not_gt fun hxy => h ?_⟩
  exact float_lt_iff.2 ⟨x, hx, y, hy, hxy⟩

theorem float_not_lt_of_le (h : a ≤ b) : ¬ b < a := by
  intro hlt
  obtain ⟨x, hx, y, hy, hxy⟩ := float_le_iff.1 h
  obtain ⟨y', hy', x', hx', hyx⟩ := float_lt_iff.1 hlt
  obtain rfl : y = y' := Option.some.inj (hy.symm.trans hy')
  obtain rfl : x = x' := Option.some.inj (hx.symm.trans hx')
  exact absurd hyx (not_lt_of_ge hxy)

/-! ## Clamping -/

/-- **A clamped number** lies between zero and one hundred. -/
theorem float_clamp_bounds (w : Float) : (0.0 : Float) ≤ clamp w ∧ clamp w ≤ (100.0 : Float) := by
  unfold clamp
  split_ifs with hnumber hlow hhigh
  · decide
  · decide
  · decide
  · have hw : w.isNaN = false := by
      change ¬ (!!w.isNaN) = true at hnumber
      rwa [Bool.not_not, Bool.not_eq_true] at hnumber
    exact ⟨float_le_of_not_lt hw (by decide) hlow, float_le_of_not_lt (by decide) hw hhigh⟩

/-- What lies there is left as it is. -/
theorem float_clamp_eq_self {w : Float} (hlow : (0.0 : Float) ≤ w) (hhigh : w ≤ (100.0 : Float)) :
    clamp w = w := by
  have hnumber : isNumber w = true := by
    change (!w.isNaN) = true
    rw [isNaN_of_float_le hlow]
    rfl
  unfold clamp
  rw [hnumber, Bool.not_true, if_neg Bool.false_ne_true, if_neg (float_not_lt_of_le hlow),
    if_neg (float_not_lt_of_le hhigh)]

end Grade

end CommandDesk
