import Mathlib.Algebra.Group.Nat.Defs
import Mustache.Number.Literal

/-!
The powers of ten that scale the digits of a float. Up to `10 ^ 308` none is rounded to
infinity, so multiplying and dividing by them is safe.
-/

namespace Mustache.Number

open Float.Model (Format UnpackedFloat totalExponent)
open Float.Model.UnpackedFloat

/-- The float is a number other than zero and the infinities. -/
def isProper (x : Float) : Bool :=
  match x.toModel.unpack with
  | .finite .. => true
  | _ => false

private theorem mantissa_shiftRight (m : ExtendedMantissa) (k : Nat) :
    (m >>> k).mantissa = m.mantissa / 2 ^ k := by
  induction k with
  | zero => exact (Nat.div_one _).symm
  | succ k ih =>
    change (m >>> k).mantissa / 2 = _
    rw [ih, Nat.div_div_eq_div_mul, Nat.pow_succ]

private theorem roundedMantissa_bounds (m : ExtendedMantissa) :
    m.mantissa ≤ m.roundedMantissa ∧ m.roundedMantissa ≤ m.mantissa + 1 := by
  obtain ⟨n, roundBit, stickyBit⟩ := m
  cases roundBit <;> cases stickyBit <;>
    simp [ExtendedMantissa.roundedMantissa, ExtendedMantissa.accuracy, Accuracy.roundToNearestEven]
  omega

private theorem shifted_bounds {m : Nat} (large : 2 ^ 52 ≤ m) :
    2 ^ 52 ≤ m / 2 ^ (m.log2 - 52) ∧ m / 2 ^ (m.log2 - 52) < 2 ^ 53 := by
  have positive : m ≠ 0 := by omega
  have bits : 52 ≤ m.log2 := (Nat.le_log2 positive).mpr large
  have low : 2 ^ m.log2 ≤ m := Nat.log2_self_le positive
  have high : m < 2 ^ (m.log2 + 1) := Nat.lt_log2_self
  constructor
  · rw [Nat.le_div_iff_mul_le (Nat.two_pow_pos _), ← Nat.pow_add]
    rwa [Nat.add_sub_cancel' bits]
  · rw [Nat.div_lt_iff_lt_mul (Nat.two_pow_pos _), ← Nat.pow_add]
    rwa [show 53 + (m.log2 - 52) = m.log2 + 1 by omega]

private theorem shiftToTargetExponent_eq {m : Nat} {e : Int} (a : Accuracy) (large : 2 ^ 52 ≤ m)
    (normal : -1022 ≤ m.log2 + e) :
    (shiftToTargetExponent .binary64 m e a).1.mantissa = m / 2 ^ (m.log2 - 52) ∧
      (shiftToTargetExponent .binary64 m e a).2 = m.log2 + e - 52 := by
  have bits : 52 ≤ m.log2 := (Nat.le_log2 (by omega)).mpr large
  have target : Format.binary64.targetExponent (totalExponent m e) = m.log2 + e - 52 := by
    change max ((m.log2 + 1 + e : Int) - 53) (-1074) = _
    omega
  have amount : (m.log2 + e - 52 - e).toNat = m.log2 - 52 := by omega
  have start : (ExtendedMantissa.ofMantissaAndAccuracy m a).mantissa = m := by
    unfold ExtendedMantissa.ofMantissaAndAccuracy
    split <;> rfl
  unfold shiftToTargetExponent shiftToExponent
  dsimp only
  rw [target, amount, mantissa_shiftRight, start]
  exact ⟨rfl, by omega⟩

private theorem isProper_pack {sign : Sign} {m : Nat} {e : Int} {positive : 0 < m}
    (size : m.log2 = 52) (low : -1074 ≤ e) (high : e ≤ 971) :
    isProper (.ofModel (.pack (.finite sign m e positive))) = true := by
  have biased : (e + Format.binary64.exponentBias +
      Format.binary64.mantissaBitsWithoutImplicit).toNat = (e + 1075).toNat := by
    change (e + 1023 + 52).toNat = _
    omega
  have value : (BitVec.ofNat 11 (e + 1075).toNat).toNat = (e + 1075).toNat := by
    rw [BitVec.toNat_ofNat]
    omega
  have packed : (Float.Model.pack (.finite sign m e positive)).unpack =
      UnpackedFloat.unpack .binary64 (packComponents .binary64 sign
        (BitVec.ofNat 11 (e + 1075).toNat) (BitVec.ofNat 52 m)) := by
    unfold Float.Model.pack Float.Model.unpack UnpackedFloat.pack
    dsimp only
    rw [biased, if_neg (by simp; omega), if_pos (by rw [size]; rfl)]
  unfold isProper
  dsimp only
  rw [packed]
  unfold UnpackedFloat.unpack
  dsimp only
  rw [if_neg, if_neg]
  · intro zero
    rw [unpackExponent_packComponents] at zero
    have same := congrArg BitVec.toNat zero
    rw [value] at same
    simp at same
    omega
  · intro top
    rw [unpackExponent_packComponents] at top
    have same := congrArg BitVec.toNat top
    rw [value] at same
    simp at same
    omega

/-- Rounding may carry into a 54th bit, which is why the mantissa is shifted twice. -/
private theorem isProper_round {m : Nat} {e : Int} (large : 2 ^ 52 ≤ m)
    (low : -1022 ≤ m.log2 + e) (high : m.log2 + e ≤ 1022) :
    isProper (.ofModel (.pack (roundWithAccuracy .binary64 .positive m e .exact))) = true := by
  obtain ⟨mantissa, exponent⟩ := shiftToTargetExponent_eq .exact large low
  obtain ⟨cut, less⟩ := shifted_bounds large
  unfold roundWithAccuracy
  generalize shiftToTargetExponent .binary64 m e .exact = first at mantissa exponent
  obtain ⟨digits, e₁⟩ := first
  dsimp only at mantissa exponent ⊢
  obtain ⟨above, below⟩ := roundedMantissa_bounds digits
  generalize digits.roundedMantissa = r at above below
  have large' : 2 ^ 52 ≤ r := by omega
  have bits : 52 ≤ r.log2 := (Nat.le_log2 (by omega)).mpr large'
  have few : r.log2 < 54 := (Nat.log2_lt (by omega)).mpr (by omega)
  obtain ⟨mantissa', exponent'⟩ := shiftToTargetExponent_eq .exact large' (e := e₁) (by omega)
  obtain ⟨cut', less'⟩ := shifted_bounds large'
  generalize shiftToTargetExponent .binary64 r e₁ .exact = second at mantissa' exponent'
  obtain ⟨digits', e₂⟩ := second
  dsimp only at mantissa' exponent' ⊢
  rw [← mantissa'] at cut' less'
  have positive : digits'.mantissa ≠ 0 := by omega
  have size : digits'.mantissa.log2 = 52 := (Nat.log2_eq_iff positive).mpr ⟨cut', less'⟩
  rw [dif_neg positive]
  exact isProper_pack size (by omega) (by omega)

private theorem log2_two_pow_mul_lt (k : Nat) {n j : Nat} (positive : 0 < n) (small : n < 2 ^ j) :
    (2 ^ k * n).log2 < k + j := by
  have nonzero : 2 ^ k * n ≠ 0 := 
    Nat.mul_ne_zero (Nat.ne_of_gt (Nat.two_pow_pos k)) (Nat.ne_of_gt positive)
  rw [Nat.log2_lt nonzero, Nat.pow_add]
  exact Nat.mul_lt_mul_of_pos_left small (Nat.two_pow_pos k)

/-- The largest power lies in the last binade, which the bound for the others leaves out. -/
theorem isProper_powerOfTen {n : Nat} (bound : n ≤ 308) :
    isProper (Literal.powerOfTen n) = true := by
  by_cases exact : n ≤ 22
  · have table : ∀ k < 23, isProper (Literal.powerOfTen k) = true := by decide +kernel
    exact table n (by omega)
  · by_cases last : n = 308
    · subst last
      decide +kernel
    · have rounded : UnpackedFloat.ofScientific .binary64 1 n =
          roundWithAccuracy .binary64 .positive (2 ^ 53 * 10 ^ n) (-53) .exact := by
        unfold UnpackedFloat.ofScientific
        rw [dif_neg (by decide), if_neg (by simp; omega), if_neg (by simp; omega),
          if_pos (by omega)]
        rfl
      have small : 10 ^ n < 2 ^ 1023 := by
        have ceiling : 10 ^ 307 < 2 ^ 1023 := by decide +kernel
        exact Nat.lt_of_le_of_lt (Nat.pow_le_pow_right (by decide) (by omega)) ceiling
      have large : 2 ^ 53 * 1 ≤ 2 ^ 53 * 10 ^ n :=
        Nat.mul_le_mul_left _ (Nat.pow_pos (by decide))
      have top := log2_two_pow_mul_lt 53 (Nat.pow_pos (by decide)) small
      have bits : 53 ≤ (2 ^ 53 * 10 ^ n).log2 := (Nat.le_log2 (by omega)).mpr (by omega)
      change isProper (Float.ofScientific 1 false n) = true
      unfold Float.ofScientific
      rw [dif_neg (by omega)]
      change isProper (.ofModel (.pack (UnpackedFloat.ofScientific .binary64 1 n))) = true
      rw [rounded]
      exact isProper_round (by omega) (by omega) (by omega)

end Mustache.Number
