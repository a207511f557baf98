import TexAlgebra.Decimal
import Mathlib.Algebra.Order.Field.Power
import Mathlib.Data.Rat.Cast.Order
import Mathlib.Tactic.FieldSimp
import Mathlib.Tactic.Linarith
import Mathlib.Tactic.NormNum
import Mathlib.Tactic.Positivity
import Mathlib.Tactic.Ring
/-!
# The values of decimal numbers

`Decimal.toRat` is the rational number that a decimal number stands for. The parts of a decimal
number bound it: it lies between the power of ten of its leading digit and the next one.
-/

namespace TexAlgebra.Decimal

/-! ## Powers of ten -/

theorem ten_zpow_pos (e : ℤ) : (0 : ℚ) < 10 ^ e := by positivity

theorem ten_zpow_add (a b : ℤ) : (10 : ℚ) ^ (a + b) = 10 ^ a * 10 ^ b :=
  zpow_add₀ (by norm_num) a b

theorem ten_zpow_lt_iff {a b : ℤ} : (10 : ℚ) ^ a < 10 ^ b ↔ a < b :=
  zpow_lt_zpow_iff_right₀ (by norm_num)

theorem ten_zpow_le_iff {a b : ℤ} : (10 : ℚ) ^ a ≤ 10 ^ b ↔ a ≤ b :=
  zpow_le_zpow_iff_right₀ (by norm_num)

/-- Higher powers of ten are larger. -/
theorem tenTo_le_tenTo {m n : Nat} (h : m ≤ n) : tenTo m ≤ tenTo n :=
  Nat.pow_le_pow_right (by decide) h

/-- As a rational a power of ten is one. -/
theorem cast_tenTo (n : Nat) : ((tenTo n : Nat) : ℚ) = 10 ^ (n : ℤ) := by
  rw [tenTo, Nat.pow_eq, Nat.cast_pow, zpow_natCast]
  rfl

theorem cast_tenTo_toNat {e : ℤ} (h : 0 ≤ e) : ((tenTo e.toNat : Nat) : ℚ) = 10 ^ e := by
  rw [cast_tenTo, Int.toNat_of_nonneg h]

/-- A power of ten as a quotient of whole numbers, one of which is one. -/
theorem ten_zpow_eq_div (e : ℤ) :
    (10 : ℚ) ^ e = (tenTo e.toNat : Nat) / (tenTo (-e).toNat : Nat) := by
  rcases le_total 0 e with h | h
  · rw [cast_tenTo_toNat h, Int.toNat_of_nonpos (by omega : -e ≤ 0), tenTo_zero, Nat.cast_one,
      div_one]
  · rw [Int.toNat_of_nonpos h, cast_tenTo_toNat (by omega : 0 ≤ -e), tenTo_zero, Nat.cast_one,
      zpow_neg, one_div, inv_inv]

/-! ## Digits -/

/-- Every number has a digit. -/
theorem digitCount_pos (n : Nat) : 0 < digitCount n := Nat.length_repr_pos

/-- A number has few digits if it is below a power of ten. -/
theorem digitCount_le_iff {n k : Nat} (h : 0 < k) : digitCount n ≤ k ↔ n < tenTo k :=
  Nat.length_repr_le_iff h

/-- A number is below the power of ten of its digits. -/
theorem lt_tenTo_digitCount (n : Nat) : n < tenTo (digitCount n) :=
  (digitCount_le_iff (digitCount_pos n)).1 (Nat.le_refl _)

/-- A number is not below the power of ten of fewer digits. -/
theorem tenTo_le_of_lt_digitCount {n k : Nat} (positive : n ≠ 0) (h : k < digitCount n) :
    tenTo k ≤ n := by
  rcases Nat.eq_zero_or_pos k with rfl | hk
  · exact Nat.one_le_iff_ne_zero.2 positive
  · have := mt (digitCount_le_iff (n := n) hk).2 (by omega)
    omega

/-! ## Values -/

/-- The factor that a sign is. -/
def signFactor (negative : Bool) : ℚ := if negative then -1 else 1

@[simp] theorem signFactor_true : signFactor true = -1 := rfl

@[simp] theorem signFactor_false : signFactor false = 1 := rfl

theorem signFactor_not (negative : Bool) : signFactor (!negative) = -signFactor negative := by
  cases negative <;> simp

theorem signFactor_bne (a b : Bool) : signFactor (a != b) = signFactor a * signFactor b := by
  cases a <;> cases b <;> simp

theorem abs_signFactor (negative : Bool) : |signFactor negative| = 1 := by
  cases negative <;> simp

theorem inv_signFactor (negative : Bool) : (signFactor negative)⁻¹ = signFactor negative := by
  cases negative <;> simp

/-- A whole number is its sign times its size. -/
theorem signFactor_mul_natAbs (n : ℤ) : signFactor (decide (n < 0)) * n.natAbs = n := by
  rw [Nat.cast_natAbs, Int.cast_abs]
  rcases lt_or_ge n 0 with h | h
  · rw [decide_eq_true h, abs_of_neg (by exact_mod_cast h), signFactor_true, neg_one_mul, neg_neg]
  · rw [decide_eq_false (not_lt.2 h), abs_of_nonneg (by exact_mod_cast h), signFactor_false,
      one_mul]

theorem signFactor_ne_zero (negative : Bool) : signFactor negative ≠ 0 := by
  cases negative <;> simp

/-- The rational number that `d` stands for. -/
def toRat (d : Decimal) : ℚ := signFactor d.negative * (d.coefficient * 10 ^ d.exponent)

theorem toRat_mk (negative : Bool) (coefficient : Nat) (exponent : ℤ) :
    toRat ⟨negative, coefficient, exponent⟩ =
      signFactor negative * (coefficient * 10 ^ exponent) := rfl

/-- A change of the exponent moves the point. -/
theorem toRat_shifted (d : Decimal) (e : ℤ) :
    toRat ⟨d.negative, d.coefficient, d.exponent + e⟩ = d.toRat * 10 ^ e := by
  rw [toRat_mk, ten_zpow_add, toRat]
  ring

/-- The size of a number does not depend on its sign. -/
theorem abs_toRat (d : Decimal) : |d.toRat| = d.coefficient * 10 ^ d.exponent := by
  rw [toRat, abs_mul, abs_signFactor, one_mul, abs_of_nonneg (by positivity)]

/-- A number is zero if its digits are. -/
@[simp] theorem toRat_eq_zero_iff (d : Decimal) : d.toRat = 0 ↔ d.coefficient = 0 := by
  rw [← abs_eq_zero, abs_toRat, mul_eq_zero, Nat.cast_eq_zero]
  exact or_iff_left (ten_zpow_pos _).ne'

/-- The test for zero is one of the value. -/
theorem isZero_iff (d : Decimal) : d.isZero = true ↔ d.toRat = 0 := by
  rw [toRat_eq_zero_iff, isZero, beq_iff_eq]

/-- With the other sign a number has the opposite value. -/
@[simp] theorem toRat_flip (d : Decimal) : d.flip.toRat = -d.toRat := by
  rw [toRat, flip, signFactor_not, neg_mul, toRat]

/-- Without a sign a number is not negative. -/
theorem toRat_nonneg {d : Decimal} (h : d.negative = false) : 0 ≤ d.toRat := by
  rw [toRat, h, signFactor_false, one_mul]
  positivity

/-- With a sign a number is not positive. -/
theorem toRat_nonpos {d : Decimal} (h : d.negative = true) : d.toRat ≤ 0 := by
  have : (0 : ℚ) ≤ d.coefficient * 10 ^ d.exponent := by positivity
  rw [toRat, h, signFactor_true]
  linarith

/-- Without its sign a number has its absolute value. -/
theorem toRat_magnitude (d : Decimal) : d.magnitude.toRat = |d.toRat| := by
  rw [abs_toRat, magnitude, toRat, signFactor_false, one_mul]

/-- A number is its sign times its absolute value. -/
theorem toRat_eq_signFactor_mul_abs (d : Decimal) :
    d.toRat = signFactor d.negative * |d.toRat| := by
  rw [abs_toRat, toRat]

@[simp] theorem toRat_ofNat (negative : Bool) (n : Nat) :
    (ofNat negative n).toRat = signFactor negative * n := by
  rw [ofNat, toRat_mk, zpow_zero, mul_one]

@[simp] theorem toRat_one : one.toRat = 1 := by
  simp [one]

/-- A number is below the power of ten behind its leading digit. -/
theorem abs_toRat_lt (d : Decimal) : |d.toRat| < 10 ^ (d.leading + 1) := by
  have h : ((d.coefficient : Nat) : ℚ) < 10 ^ (digitCount d.coefficient : ℤ) := by
    rw [← cast_tenTo]
    exact_mod_cast lt_tenTo_digitCount d.coefficient
  have split : d.leading + 1 = digitCount d.coefficient + d.exponent := by
    rw [leading]
    omega
  rw [abs_toRat, split, ten_zpow_add]
  exact mul_lt_mul_of_pos_right h (ten_zpow_pos _)

/-- A number that is not zero is not below the power of ten of its leading digit. -/
theorem ten_zpow_leading_le {d : Decimal} (positive : d.coefficient ≠ 0) :
    10 ^ d.leading ≤ |d.toRat| := by
  have count := digitCount_pos d.coefficient
  have h : (10 : ℚ) ^ ((digitCount d.coefficient - 1 : Nat) : ℤ) ≤ d.coefficient := by
    rw [← cast_tenTo]
    exact_mod_cast tenTo_le_of_lt_digitCount positive (by omega)
  have split : d.leading = (digitCount d.coefficient - 1 : Nat) + d.exponent := by
    rw [leading]
    omega
  rw [abs_toRat, split, ten_zpow_add]
  exact mul_le_mul_of_nonneg_right h (ten_zpow_pos _).le

/-- The leading digit of a number other than zero is where its value says. -/
theorem leading_lt_iff {d : Decimal} (positive : d.coefficient ≠ 0) (e : ℤ) :
    d.leading < e ↔ |d.toRat| < 10 ^ e := by
  constructor
  · intro h
    exact lt_of_lt_of_le (abs_toRat_lt d) (ten_zpow_le_iff.2 (by omega))
  · intro h
    exact ten_zpow_lt_iff.1 (lt_of_le_of_lt (ten_zpow_leading_le positive) h)

/-- At a lower exponent a number has more digits and the same value. -/
theorem scaled_mul {d : Decimal} {e : ℤ} (h : e ≤ d.exponent) :
    (d.scaled e : ℚ) * 10 ^ e = d.toRat := by
  have shift : d.exponent = (d.exponent - e) + e := by omega
  have units : ((d.coefficient * tenTo (d.exponent - e).toNat : Nat) : ℚ) * 10 ^ e =
      d.coefficient * 10 ^ d.exponent := by
    rw [Nat.cast_mul, cast_tenTo_toNat (by omega), mul_assoc, ← ten_zpow_add, ← shift]
  rw [toRat, ← units, scaled]
  cases d.negative <;> simp

/-! ## Zeros at the end -/

/-- To strip zeros and count them in the exponent keeps the value. -/
theorem stripZeros_value (fuel c : Nat) (e : ℤ) :
    ((stripZeros fuel c e).1 : ℚ) * 10 ^ (stripZeros fuel c e).2 = c * 10 ^ e := by
  induction fuel generalizing c e with
  | zero => rfl
  | succ fuel ih =>
    rw [stripZeros]
    split
    · next h =>
      rw [ih]
      have tens : (c : ℚ) = (c / 10 : Nat) * 10 := by
        exact_mod_cast (Nat.div_mul_cancel (Nat.dvd_of_mod_eq_zero h)).symm
      rw [tens, ten_zpow_add, zpow_one]
      ring
    · rfl

/-- To strip zeros makes the digits fewer and the exponent higher. -/
theorem stripZeros_le (fuel c : Nat) (e : ℤ) :
    (stripZeros fuel c e).1 ≤ c ∧ e ≤ (stripZeros fuel c e).2 := by
  induction fuel generalizing c e with
  | zero => exact ⟨Nat.le_refl _, Int.le_refl _⟩
  | succ fuel ih =>
    rw [stripZeros]
    split
    · have := ih (c / 10) (e + 1)
      have := Nat.div_le_self c 10
      omega
    · exact ⟨Nat.le_refl _, Int.le_refl _⟩

/-- Enough fuel leaves no zero at the end. -/
theorem stripZeros_mod (fuel c : Nat) (e : ℤ) (positive : c ≠ 0) (enough : c < tenTo fuel) :
    (stripZeros fuel c e).1 % 10 ≠ 0 := by
  induction fuel generalizing c e with
  | zero =>
    rw [tenTo_zero] at enough
    omega
  | succ fuel ih =>
    rw [stripZeros]
    split
    · rw [tenTo_succ] at enough
      exact ih (c / 10) (e + 1) (by omega) (by omega)
    · assumption

/-- To strip zeros keeps the value. -/
@[simp] theorem toRat_stripped (d : Decimal) : d.stripped.toRat = d.toRat := by
  rw [stripped]
  split
  · next h => simp [toRat, h]
  · rw [toRat_mk, stripZeros_value, toRat]

/-- To strip zeros keeps the sign. -/
theorem negative_stripped (d : Decimal) : d.stripped.negative = d.negative := by
  rw [stripped]
  split <;> rfl

/-- To strip zeros makes the digits fewer. -/
theorem coefficient_stripped_le (d : Decimal) : d.stripped.coefficient ≤ d.coefficient := by
  rw [stripped]
  split
  · exact Nat.le_refl _
  · exact (stripZeros_le _ _ _).1

/-- To strip zeros makes the exponent higher. -/
theorem exponent_le_stripped {d : Decimal} (positive : d.coefficient ≠ 0) :
    d.exponent ≤ d.stripped.exponent := by
  rw [stripped, if_neg positive]
  exact (stripZeros_le _ _ _).2

/-- Once the zeros are stripped the last digit is none. -/
theorem coefficient_stripped_mod {d : Decimal} (positive : d.coefficient ≠ 0) :
    d.stripped.coefficient % 10 ≠ 0 := by
  rw [stripped, if_neg positive]
  exact stripZeros_mod _ _ _ positive (lt_tenTo_digitCount _)

/-! ## Comparison -/

/-- The canonical form of a number has its value. -/
theorem toRat_canonical (d : Decimal) : d.canonical.toRat = d.toRat := by
  rw [canonical]
  split
  · next zero =>
    rw [(isZero_iff d).1 zero, toRat_ofNat, Nat.cast_zero, mul_zero]
  · exact toRat_stripped d

/-- Numbers of the same canonical form have one value. -/
theorem toRat_eq_of_sameValue {a b : Decimal} (h : a.sameValue b = true) : a.toRat = b.toRat := by
  rw [← toRat_canonical, ← toRat_canonical b, eq_of_beq h]

/-! ## Whole numbers -/

/-- A number without places is the whole number that it is cut to. -/
theorem cast_truncate {d : Decimal} (h : 0 ≤ d.exponent) : (d.truncate : ℚ) = |d.toRat| := by
  rw [truncate, if_neg (by omega), Nat.cast_mul, cast_tenTo_toNat h, abs_toRat]

/-- A whole number without zeros at the end has no digits after the point. -/
theorem exponent_nonneg_of_whole {d : Decimal} {n : ℤ} (whole : d.toRat = n)
    (short : d.coefficient % 10 ≠ 0) : 0 ≤ d.exponent := by
  by_contra below
  have size : (d.coefficient : ℚ) = n.natAbs * 10 ^ (-d.exponent) := by
    have h := abs_toRat d
    rw [whole, ← Int.cast_abs, Int.abs_eq_natAbs, Int.cast_natCast] at h
    rw [h, mul_assoc, ← ten_zpow_add, add_neg_cancel, zpow_zero, mul_one]
  rw [← cast_tenTo_toNat (by omega), ← Nat.cast_mul, Nat.cast_inj] at size
  -- digits after the point would make the coefficient a multiple of ten
  obtain ⟨k, hk⟩ : ∃ k, (-d.exponent).toNat = k + 1 := ⟨(-d.exponent).toNat - 1, by omega⟩
  rw [hk, tenTo_succ] at size
  apply short
  rw [size, ← Nat.mul_assoc]
  exact Nat.mul_mod_left _ _

end TexAlgebra.Decimal
