import TexAlgebra.Proofs.Decimal.Multiplication
import Mathlib.Tactic.IntervalCases
/-!
# Exact powers

The power of a decimal number to a whole one is exact whenever the exact power fits (`toRat_pow`):
what multiplication comes to is, and a power that leaves the range of exponents downwards never
fits. Other powers need not be the nearest results to the exact ones.
-/

namespace TexAlgebra.Decimal

/-! ## Powers out of range -/

/-- A power of a number that exceeds one by a unit of place `k` is at least `10 ^ s` if its exponent
is great enough. -/
theorem ten_pow_le_pow {q : ℚ} {k s n : Nat} (above : 1 + 10 ^ (-(k : ℤ)) ≤ q)
    (far : tenTo k * (4 * s) ≤ n) : 10 ^ s ≤ q ^ n := by
  have unit_pos := ten_zpow_pos (-(k : ℤ))
  have one_le : 1 ≤ q := by linarith
  -- `10 ^ k` factors of this size are enough to double
  have doubled : 2 ≤ q ^ tenTo k := by
    have growth := one_add_mul_le_pow (a := q - 1) (by linarith) (tenTo k)
    have : (tenTo k : ℚ) * 10 ^ (-(k : ℤ)) = 1 := by
      rw [cast_tenTo, ← ten_zpow_add, add_neg_cancel, zpow_zero]
    have : (tenTo k : ℚ) * 10 ^ (-(k : ℤ)) ≤ tenTo k * (q - 1) :=
      mul_le_mul_of_nonneg_left (by linarith) (Nat.cast_nonneg _)
    rw [add_sub_cancel] at growth
    linarith
  calc (10 : ℚ) ^ s ≤ (2 ^ 4) ^ s := pow_le_pow_left₀ (by norm_num) (by norm_num) s
    _ = 2 ^ (4 * s) := (pow_mul 2 4 s).symm
    _ ≤ (q ^ tenTo k) ^ (4 * s) := pow_le_pow_left₀ (by norm_num) doubled _
    _ = q ^ (tenTo k * (4 * s)) := (pow_mul ..).symm
    _ ≤ q ^ n := pow_le_pow_right₀ one_le far

/-- What `closeness` promises: a number without zeros at the end, or its inverse if it is below one,
exceeds one by a unit of that place. -/
theorem closeness_spec {x : Decimal} (positive : x.negative = false)
    (short : x.coefficient % 10 ≠ 0) (other : x ≠ one) :
    1 + 10 ^ (-(x.closeness : ℤ)) ≤ if 0 ≤ x.leading then x.toRat else x.toRat⁻¹ := by
  have nonzero : x.coefficient ≠ 0 := by omega
  have value : |x.toRat| = x.toRat := by
    rw [toRat, positive, signFactor_false, one_mul, abs_of_nonneg (by positivity)]
  have low := ten_zpow_leading_le nonzero
  have high := abs_toRat_lt x
  have size := abs_toRat x
  rw [value] at low high size
  have count := digitCount_pos x.coefficient
  have digits : x.leading = x.exponent + digitCount x.coefficient - 1 := rfl
  have unit_le : (10 : ℚ) ^ (-(x.closeness : ℤ)) ≤ 1 := by
    rw [← zpow_zero 10, ten_zpow_le_iff]
    omega
  split
  · next large =>
    rcases lt_or_ge x.leading 1 with units | tens
    · -- the number leads with the units
      have zero : x.leading = 0 := by omega
      rw [closeness, if_pos (Or.inl zero)]
      have place : (-x.exponent).toNat = digitCount x.coefficient - 1 := by omega
      have least := tenTo_le_of_lt_digitCount (k := digitCount x.coefficient - 1) nonzero (by omega)
      have above : tenTo (-x.exponent).toNat + 1 ≤ x.coefficient := by
        rw [place]
        refine Nat.lt_of_le_of_ne least fun power => ?_
        cases rest : digitCount x.coefficient - 1 with
        | zero =>
          rw [rest, tenTo_zero] at power
          have whole : x.exponent = 0 := by omega
          apply other
          obtain ⟨negative, coefficient, exponent⟩ := x
          cases positive
          cases power
          cases whole
          rfl
        | succ k =>
          rw [rest, tenTo_succ] at power
          omega
      have above : 10 ^ (-x.exponent) + 1 ≤ (x.coefficient : ℚ) := by
        rw [← cast_tenTo_toNat (by omega)]
        exact_mod_cast above
      have below : (10 : ℚ) ^ (-(digitCount x.coefficient : ℤ)) ≤ 10 ^ x.exponent :=
        ten_zpow_le_iff.2 (by omega)
      have whole : (10 : ℚ) ^ (-x.exponent) * 10 ^ x.exponent = 1 := by
        rw [← ten_zpow_add, neg_add_cancel, zpow_zero]
      have := mul_le_mul_of_nonneg_right above (ten_zpow_pos x.exponent).le
      rw [size]
      linarith
    · have : (10 : ℚ) ^ (1 : ℤ) ≤ x.toRat := (ten_zpow_le_iff.2 tens).trans low
      rw [zpow_one] at this
      linarith
  · next small =>
    have positive : 0 < x.toRat := lt_of_lt_of_le (ten_zpow_pos _) low
    rw [← one_div, le_div_iff₀ positive]
    rcases lt_or_ge x.leading (-1) with tiny | tenths
    · -- the number is below a tenth
      have : x.toRat < 10 ^ (-1 : ℤ) := lt_of_lt_of_le high (ten_zpow_le_iff.2 (by omega))
      have : x.toRat < 1 / 2 := lt_trans this (by norm_num)
      calc (1 + 10 ^ (-(x.closeness : ℤ))) * x.toRat ≤ 2 * x.toRat :=
            mul_le_mul_of_nonneg_right (by linarith) positive.le
        _ ≤ 1 := by linarith
    · -- the number leads with the tenths, so it is at least a unit of its last place below one
      have tenth : x.leading = -1 := by omega
      rw [closeness, if_pos (Or.inr tenth)]
      have place : x.exponent = -(digitCount x.coefficient : ℤ) := by omega
      rw [place] at size
      have most : (x.coefficient : ℚ) + 1 ≤ 10 ^ (digitCount x.coefficient : ℤ) := by
        rw [← cast_tenTo]
        exact_mod_cast lt_tenTo_digitCount x.coefficient
      have whole : (10 : ℚ) ^ (digitCount x.coefficient : ℤ) *
          10 ^ (-(digitCount x.coefficient : ℤ)) = 1 := by
        rw [← ten_zpow_add, add_neg_cancel, zpow_zero]
      have unit_pos := ten_zpow_pos (-(digitCount x.coefficient : ℤ))
      have below := mul_le_mul_of_nonneg_right most unit_pos.le
      generalize (10 : ℚ) ^ (-(digitCount x.coefficient : ℤ)) = unit at *
      calc (1 + unit) * x.toRat ≤ (1 + unit) * (1 - unit) :=
            mul_le_mul_of_nonneg_left (by linarith) (by linarith)
        _ = 1 - unit * unit := by ring
        _ ≤ 1 := sub_le_self 1 (mul_self_nonneg unit)

/-- A power that leaves the range downwards is too small to fit. -/
theorem not_fits_of_leavesRange {x y : Decimal} (positive : x.negative = false)
    (short : x.coefficient % 10 ≠ 0) (other : x ≠ one) (nonzero : y.coefficient ≠ 0)
    (whole : 0 ≤ y.exponent) (leaves : leavesRange x y = true)
    (small : ¬ ((0 ≤ x.leading) != y.negative) = true) :
    ¬ Fits (x.toRat ^ signedExponent y.negative y.truncate) := by
  intro fits
  have above := closeness_spec positive short other
  have far : tenTo x.closeness * (4 * 1000030) ≤ y.truncate := by
    have places : (10 : ℚ) ^ ((x.closeness + 11 : Nat) : ℤ) ≤ y.truncate := by
      rw [cast_truncate whole]
      refine le_trans (ten_zpow_le_iff.2 ?_) (ten_zpow_leading_le nonzero)
      rw [leavesRange, decide_eq_true_eq] at leaves
      omega
    rw [← cast_tenTo, Nat.cast_le] at places
    calc tenTo x.closeness * (4 * 1000030)
        ≤ tenTo x.closeness * tenTo 11 := Nat.mul_le_mul_left _ (by decide)
      _ = tenTo (x.closeness + 11) := (Nat.pow_add ..).symm
      _ ≤ y.truncate := places
  have power := ten_pow_le_pow above far
  have nonzero : x.coefficient ≠ 0 := by omega
  have base : x.toRat ≠ 0 := mt (toRat_eq_zero_iff x).1 nonzero
  -- whichever of `x` and its inverse exceeds one, the power is the inverse of its power
  have value : x.toRat ^ signedExponent y.negative y.truncate =
      ((if 0 ≤ x.leading then x.toRat else x.toRat⁻¹) ^ y.truncate)⁻¹ := by
    cases negative : y.negative with
    | false =>
      have down : ¬ 0 ≤ x.leading := by simpa [negative] using small
      rw [if_neg down, signedExponent_false, zpow_natCast, inv_pow, inv_inv]
    | true =>
      have up : 0 ≤ x.leading := by simpa [negative] using small
      rw [if_pos up, signedExponent_true, zpow_neg, zpow_natCast]
  have least := le_abs_of_fits fits (zpow_ne_zero _ base)
  have ten_pos : (0 : ℚ) < 10 ^ 1000030 := pow_pos (by norm_num) _
  rw [value, abs_of_pos (inv_pos.2 (lt_of_lt_of_le ten_pos power))] at least
  have most := least.trans (inv_anti₀ ten_pos power)
  rw [← zpow_natCast, ← zpow_neg, ten_zpow_le_iff] at most
  exact absurd most (by decide)

/-! ## Powers -/

/-- A whole number is odd if its last digit before the point is. -/
theorem isOdd_iff {d : Decimal} (whole : 0 ≤ d.exponent) : d.isOdd = true ↔ Odd d.truncate := by
  rw [isOdd, truncate, if_neg (by omega), Bool.and_eq_true, beq_iff_eq, beq_iff_eq]
  rcases eq_or_lt_of_le whole with zero | positive
  · rw [← zero, Int.toNat_zero, tenTo_zero, Nat.mul_one, Nat.odd_iff]
    exact and_iff_right rfl
  · obtain ⟨k, hk⟩ : ∃ k, d.exponent.toNat = k + 1 := ⟨d.exponent.toNat - 1, by omega⟩
    rw [hk, tenTo_succ, Nat.odd_iff]
    constructor
    · rintro ⟨zero, -⟩
      omega
    · intro odd
      rw [← Nat.mul_assoc, Nat.mul_mod] at odd
      simp at odd

/-- A power that fits is exact, for a positive base whose digits do not end with a zero and a whole
exponent. -/
theorem toRat_positivePower {negative : Bool} {x y r : Decimal} (positive : x.negative = false)
    (short : x.coefficient % 10 ≠ 0) (nonzero : y.coefficient ≠ 0) (whole : 0 ≤ y.exponent)
    (h : positivePower negative x y = .ok r)
    (fits : Fits (x.toRat ^ signedExponent y.negative y.truncate)) :
    r.toRat = signFactor negative * x.toRat ^ signedExponent y.negative y.truncate := by
  rw [positivePower] at h
  split at h
  · next one =>
    cases h
    rw [one, toRat_one, one_zpow, toRat_ofNat, Nat.cast_one]
  next other =>
  split at h
  · next leaves =>
    rw [outOfRange] at h
    split at h
    · cases h
    · next small =>
      exact absurd fits (not_fits_of_leavesRange positive short other nonzero whole leaves small)
  have several : y.truncate ≠ 0 := by
    rw [truncate, if_neg (by omega)]
    exact Nat.mul_ne_zero nonzero (tenTo_pos _).ne'
  exact toRat_wholePower positive short several h fits

/-- The power of a number to a whole one, if there is one and the exact power fits. -/
theorem toRat_pow {a b r : Decimal} {n : ℤ} (whole : b.toRat = n) (h : pow a b = .ok r)
    (fits : Fits (a.toRat ^ n)) : r.toRat = a.toRat ^ n := by
  rw [pow] at h
  split at h
  · next zero =>
    rw [isZero_iff, whole, Int.cast_eq_zero] at zero
    subst zero
    split at h
    · cases h
    · cases h
      rw [toRat_one, zpow_zero]
  next nonzero =>
  rw [isZero_iff] at nonzero
  split at h
  · next zero =>
    rw [isZero_iff] at zero
    split at h
    · cases h
    · cases h
      have : n ≠ 0 := by
        rintro rfl
        exact nonzero (by rw [whole, Int.cast_zero])
      rw [zero, zero_zpow n this, toRat_ofNat, Nat.cast_zero, mul_zero]
  next base =>
  rw [isZero_iff, toRat_eq_zero_iff] at base
  split at h
  · cases h
  have coefficient : b.coefficient ≠ 0 := mt (toRat_eq_zero_iff b).2 nonzero
  -- the exponent is whole, so without zeros at its end it has no digits after the point
  have mod_b := coefficient_stripped_mod coefficient
  have exponent :=
    exponent_nonneg_of_whole (d := b.stripped) (n := n) (by rw [toRat_stripped, whole]) mod_b
  have mod_a := coefficient_stripped_mod (d := a.magnitude) base
  have base' : a.magnitude.stripped.toRat = |a.toRat| := by rw [toRat_stripped, toRat_magnitude]
  have exponent' : signedExponent b.stripped.negative b.stripped.truncate = n := by
    have value := toRat_eq_signFactor_mul_abs b.stripped
    rw [← cast_truncate exponent, ← cast_signedExponent, toRat_stripped, whole] at value
    exact_mod_cast value.symm
  have power := toRat_positivePower (negative_stripped _) mod_a (by omega) exponent h
  rw [base', exponent'] at power
  have sign : signFactor a.negative ^ n = signFactor (a.negative && b.stripped.isOdd) := by
    have odd : b.stripped.isOdd = decide (Odd n) := by
      rw [Bool.eq_iff_iff, isOdd_iff exponent, decide_eq_true_iff, ← exponent', odd_signedExponent]
    rw [odd, signFactor_zpow]
  rw [toRat_eq_signFactor_mul_abs a, mul_zpow, sign, fits_signFactor_mul_iff] at fits
  rw [power fits, toRat_eq_signFactor_mul_abs a, mul_zpow, sign, abs_mul, abs_signFactor, one_mul,
    abs_abs]

-- the quotient of one and 65382 is nearer to the number that ends in 795
example : (pow (ofNat false 65382) (ofNat true 1)).toOption =
    some ⟨false, 1529472943623627298033097794, -32⟩ := by decide +kernel

/-! ## Results -/

/-- Zero and one are results. -/
theorem isResult_ofNat (negative : Bool) {n : Nat} (h : n < 2) : (ofNat negative n).IsResult := by
  have leads : (0 : ℤ) + digitCount n - 1 ≤ maxExponent := by
    interval_cases n <;> decide
  have few : 2 ≤ tenTo precision := by decide
  exact ⟨h.le.trans few, (by decide : minExponent ≤ 0), leads⟩

/-- A power out of range is a result where it is a number at all. -/
theorem isResult_outOfRange {negative large : Bool} {r : Decimal}
    (h : outOfRange negative large = .ok r) : r.IsResult := by
  rw [outOfRange] at h
  split at h
  · cases h
  · cases h
    exact ⟨Nat.zero_le _, le_refl _, (by decide : minExponent + digitCount 0 - 1 ≤ maxExponent)⟩

/-- A whole power is a result. -/
theorem isResult_wholePower {negative inverse : Bool} {x r : Decimal} {n : Nat}
    (h : wholePower negative inverse x n = .ok r) : r.IsResult := by
  obtain ⟨base, -, h⟩ := ok_of_bind h
  obtain ⟨power, -, h⟩ := ok_of_bind h
  exact isResult_of_nearest Nat.one_ne_zero h

/-- A power with a fraction in the exponent is a result. -/
theorem isResult_fractionalPower {x y r : Decimal} (h : fractionalPower x y = .ok r) :
    r.IsResult := by
  obtain ⟨log, -, h⟩ := ok_of_bind h
  obtain ⟨product, -, h⟩ := ok_of_bind h
  obtain ⟨power, -, h⟩ := ok_of_bind h
  exact isResult_of_nearest Nat.one_ne_zero h

/-- A power of a positive base is a result. -/
theorem isResult_positivePower {negative : Bool} {x y r : Decimal}
    (h : positivePower negative x y = .ok r) : r.IsResult := by
  rw [positivePower] at h
  split at h
  · cases h
    exact isResult_ofNat negative (by decide)
  split at h
  · exact isResult_outOfRange h
  split at h
  · exact isResult_wholePower h
  · exact isResult_fractionalPower h

/-- A power is a result. -/
theorem isResult_pow {a b r : Decimal} (h : pow a b = .ok r) : r.IsResult := by
  rw [pow] at h
  split at h
  · split at h
    · cases h
    · cases h
      exact isResult_ofNat false (by decide)
  split at h
  · split at h
    · cases h
    · cases h
      exact isResult_ofNat false (by decide)
  split at h
  · cases h
  exact isResult_positivePower h

end TexAlgebra.Decimal
