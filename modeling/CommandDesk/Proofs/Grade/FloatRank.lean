import CommandDesk.Proofs.Grade.FloatOrder
import Mathlib

/-!
# Ranks of floating-point numbers

The rank of a number is read off its bits: the exponent stands above the mantissa,
so the magnitude counts the numbers below it, and a sign turns the count around
(`ranked_unpack`). Of two numbers that compare, the lower one has the lower rank
(`floatRank_lt_of_lt`). Only the two zeros compare equal and have ranks of their
own.
-/

namespace CommandDesk

namespace Grade

open Float.Model (UnpackedFloat Format)
open Float.Model.UnpackedFloat

/-! ## The fields of a number -/

theorem toNat_unpackMantissa (b : BitVec 64) :
    (@unpackMantissa .binary64 b).toNat = b.toNat % 2 ^ 52 := by
  simp [unpackMantissa_def]

theorem toNat_unpackExponent (b : BitVec 64) :
    (@unpackExponent .binary64 b).toNat = b.toNat / 2 ^ 52 % 2048 := by
  simp [unpackExponent_def, Nat.shiftRight_eq_div_pow]

theorem toNat_unpackSign (b : BitVec 64) :
    (@unpackSign .binary64 b).toNat = b.toNat / 2 ^ 63 := by
  have hlt : b.toNat < 2 ^ 64 := b.isLt
  have hsign : (@unpackSign .binary64 b).toNat = b.toNat / 2 ^ 63 % 2 := by
    simp [unpackSign_def, Nat.shiftRight_eq_div_pow]
  omega

/-- The rank of a magnitude with a sign. -/
def signedRank (s : Sign) (magnitude : ℤ) : ℤ :=
  match s with
  | .positive => magnitude
  | .negative => -1 - magnitude

/-- The sign is the highest bit, and the magnitude is what follows it. -/
theorem floatRank_eq (x : Float) :
    floatRank x = signedRank (Sign.ofBitVec (@unpackSign .binary64 x.toBits.toBitVec))
      ((x.toBits.toNat % 2 ^ 63 : ℕ) : ℤ) := by
  have hmagnitude : (x.toBits &&& 0x7FFFFFFFFFFFFFFF).toNat = x.toBits.toNat % 2 ^ 63 := by
    rw [UInt64.toNat_and]
    exact Nat.and_two_pow_sub_one_eq_mod _ 63
  have hlt : x.toBits.toNat < 2 ^ 64 := x.toBits.toBitVec.isLt
  have hsign : (@unpackSign .binary64 x.toBits.toBitVec).toNat =
      x.toBits.toNat / 2 ^ 63 := toNat_unpackSign _
  have hnegative : Decimal.isNegative x = true ↔ x.toBits.toNat / 2 ^ 63 = 1 := by
    unfold Decimal.isNegative
    rw [beq_iff_eq, ← UInt64.toNat_inj, UInt64.toNat_shiftRight]
    simp [Nat.shiftRight_eq_div_pow]
  unfold floatRank Sign.ofBitVec
  dsimp only
  rw [hmagnitude]
  by_cases hpositive : @unpackSign .binary64 x.toBits.toBitVec = 0#1
  · rw [if_pos hpositive, if_neg]
    · rfl
    · rw [hnegative, ← hsign, hpositive]
      decide
  · rw [if_neg hpositive, if_pos]
    · rfl
    · have hne : (@unpackSign .binary64 x.toBits.toBitVec).toNat ≠ 0 := fun hzero =>
        hpositive (BitVec.eq_of_toNat_eq hzero)
      rw [hnegative]
      omega

/-! ## Magnitudes -/

/-- **The rank that a number has**: mantissas fill one exponent after the other, zero stands below
them and infinity above. -/
inductive Ranked : UnpackedFloat → ℤ → Prop
  | notANumber (r : ℤ) : Ranked .notANumber r
  | zero (s : Sign) : Ranked (.zero s) (signedRank s 0)
  | infinity (s : Sign) : Ranked (.infinity s) (signedRank s (2047 * 2 ^ 52))
  | finite (s : Sign) (m : ℕ) (e magnitude : ℤ) (hm : 0 < m) (hlow : -1074 ≤ e) (hhigh : e ≤ 971)
      (hlimit : m < 2 ^ 53) (hnormal : -1074 < e → 2 ^ 52 ≤ m)
      (hmagnitude : magnitude = (e + 1074) * 2 ^ 52 + m) :
      Ranked (.finite s m e hm) (signedRank s magnitude)

theorem toNat_one_append (v : BitVec 52) : (1#1 ++ v).toNat = 2 ^ 52 + v.toNat := by
  rw [BitVec.toNat_append, ← Nat.shiftLeft_add_eq_or_of_lt v.isLt]
  simp [Nat.shiftLeft_eq]

theorem ranked_unpack (x : Float) : Ranked x.toModel.unpack (floatRank x) := by
  have hmantissa : (@unpackMantissa .binary64 x.toBits.toBitVec).toNat = x.toBits.toNat % 2 ^ 52 :=
    toNat_unpackMantissa _
  have hexponent : (@unpackExponent .binary64 x.toBits.toBitVec).toNat =
      x.toBits.toNat / 2 ^ 52 % 2048 := toNat_unpackExponent _
  have hunpack : x.toModel.unpack = unpack .binary64 x.toBits.toBitVec := rfl
  have hbias : ((Format.binary64.exponentBias : ℕ) : ℤ) = 1023 := rfl
  have hbits : ((x.toBits.toNat % 2 ^ 63 : ℕ) : ℤ) =
      (@unpackExponent .binary64 x.toBits.toBitVec).toNat * 2 ^ 52 +
        (@unpackMantissa .binary64 x.toBits.toBitVec).toNat := by
    rw [hmantissa, hexponent]
    omega
  have hlimit : (@unpackMantissa .binary64 x.toBits.toBitVec).toNat < 2 ^ 52 := BitVec.isLt _
  have hlast : (@unpackExponent .binary64 x.toBits.toBitVec).toNat < 2048 := BitVec.isLt _
  rw [floatRank_eq, hunpack, unpack, hbits]
  dsimp only
  split_ifs with hspecial hnone hfirst hempty
  · rw [hspecial, hnone]
    exact .infinity _
  · exact .notANumber _
  · rw [hfirst, hempty]
    exact .zero _
  · -- numbers of the first exponent have the mantissa that is written
    have hzero : (@unpackExponent .binary64 x.toBits.toBitVec).toNat = 0 := by
      rw [hfirst]
      rfl
    exact .finite _ _ _ _ _ (by omega) (by omega) (by omega) (by omega) (by omega)
  · -- those of any other have one more bit, which is not written
    have hpos : (@unpackExponent .binary64 x.toBits.toBitVec).toNat ≠ 0 := fun hzero =>
      hfirst (BitVec.eq_of_toNat_eq hzero)
    have hfinite : (@unpackExponent .binary64 x.toBits.toBitVec).toNat ≠ 2047 :=
      fun hfull => hspecial (BitVec.eq_of_toNat_eq hfull)
    have happend := toNat_one_append (@unpackMantissa .binary64 x.toBits.toBitVec)
    exact .finite _ _ _ _ _ (by omega) (by omega) (by omega) (by omega) (by omega)

/-! ## The order of ranks -/

/-- What the rank is at a place, by its class, its exponent and its mantissa. -/
def Stands (p : ℤ ×ₗ ℤ ×ₗ ℤ) (r : ℤ) : Prop :=
  let c := (ofLex p).1
  let e := (ofLex (ofLex p).2).1
  let m := (ofLex (ofLex p).2).2
  (c = -2 ∧ e = 0 ∧ m = 0 ∧ r = -1 - 2047 * 2 ^ 52) ∨
    (c = -1 ∧ -971 ≤ e ∧ e ≤ 1074 ∧ -2 ^ 53 < m ∧ m < 0 ∧ (e < 1074 → m ≤ -2 ^ 52) ∧
      r = (e - 1074) * 2 ^ 52 + m - 1) ∨
    (c = 0 ∧ e = 0 ∧ m = 0 ∧ -1 ≤ r ∧ r ≤ 0) ∨
    (c = 1 ∧ -1074 ≤ e ∧ e ≤ 971 ∧ 0 < m ∧ m < 2 ^ 53 ∧ (-1074 < e → 2 ^ 52 ≤ m) ∧
      r = (e + 1074) * 2 ^ 52 + m) ∨
    (c = 2 ∧ e = 0 ∧ m = 0 ∧ r = 2047 * 2 ^ 52)

theorem Ranked.stands {a : UnpackedFloat} {r : ℤ} (h : Ranked a r) {p : ℤ ×ₗ ℤ ×ₗ ℤ}
    (hp : p ∈ place a) : Stands p r := by
  cases h with
  | notANumber => cases hp
  | zero s =>
    cases s <;> cases hp <;> simp [Stands, signedRank]
  | infinity s =>
    cases s <;> cases hp <;> simp [Stands, signedRank]
  | finite s m e magnitude hm hlow hhigh hlimit hnormal hmagnitude =>
    unfold Stands signedRank
    cases s with
    | negative =>
      cases hp
      exact .inr (.inl (by dsimp only [ofLex_toLex]; omega))
    | positive =>
      cases hp
      exact .inr (.inr (.inr (.inl (by dsimp only [ofLex_toLex]; omega))))

/-- What comes first has the lower rank. -/
theorem Stands.lt {p q : ℤ ×ₗ ℤ ×ₗ ℤ} {r s : ℤ} (hp : Stands p r) (hq : Stands q s) (h : p < q) :
    r < s := by
  rw [Prod.Lex.lt_iff, Prod.Lex.lt_iff] at h
  unfold Stands at hp hq
  dsimp only at hp hq h
  omega

/-- **Of two numbers the lower one has the lower rank.** -/
theorem floatRank_lt_of_lt {a b : Float} (h : a < b) : floatRank a < floatRank b := by
  obtain ⟨x, hx, y, hy, hxy⟩ := float_lt_iff.1 h
  exact ((ranked_unpack a).stands hx).lt ((ranked_unpack b).stands hy) hxy

end Grade

end CommandDesk
