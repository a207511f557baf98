import TexAlgebra.Proofs.Decimal.Rounding
/-!
# Exact arithmetic

An operation on decimal numbers whose exact result fits has this result. In particular a number that
lies far below the digits of another one, which the sum replaces by a nearer one, never does so when
the sum fits.
-/

namespace TexAlgebra.Decimal

variable {a b d : Decimal}

/-! ## Signs -/

/-- What fits is rounded to itself. -/
theorem rounded_of_fits (fits : Fits d.toRat) : ∃ r, d.rounded = .ok r ∧ r.toRat = d.toRat :=
  nearest_eq_of_fits Nat.one_ne_zero (by rw [Nat.cast_one, div_one, toRat]) fits

/-- A number that fits keeps its value. -/
theorem pos_of_fits (fits : Fits d.toRat) : ∃ r, d.pos = .ok r ∧ r.toRat = d.toRat :=
  rounded_of_fits fits

/-- A number of which the opposite fits has that as its opposite. -/
theorem neg_of_fits (fits : Fits (-d.toRat)) : ∃ r, d.neg = .ok r ∧ r.toRat = -d.toRat := by
  rw [← toRat_flip] at fits ⊢
  exact rounded_of_fits fits

/-! ## Products and quotients -/

/-- A product that fits is exact. -/
theorem mul_of_fits (fits : Fits (a.toRat * b.toRat)) :
    ∃ r, mul a b = .ok r ∧ r.toRat = a.toRat * b.toRat := by
  refine nearest_eq_of_fits Nat.one_ne_zero ?_ fits
  rw [signFactor_bne, ten_zpow_add, Nat.cast_mul, Nat.cast_one, toRat, toRat]
  ring

/-- A quotient that fits is exact. -/
theorem div_of_fits (nonzero : b.toRat ≠ 0) (fits : Fits (a.toRat / b.toRat)) :
    ∃ r, div a b = .ok r ∧ r.toRat = a.toRat / b.toRat := by
  have positive : b.coefficient ≠ 0 := mt (toRat_eq_zero_iff b).2 nonzero
  rw [div, if_neg (by rwa [isZero_iff])]
  refine nearest_eq_of_fits positive ?_ fits
  rw [signFactor_bne, sub_eq_add_neg, ten_zpow_add, zpow_neg, toRat, toRat, div_eq_mul_inv,
    div_eq_mul_inv, mul_inv, mul_inv, inv_signFactor]
  ring

/-! ## Sums -/

/-- A number that the sum would replace lies so far below the other one that the sum has too many
digits. -/
theorem drawnTo_eq_self {large small : Decimal} (hl : large.coefficient ≠ 0)
    (hs : small.coefficient ≠ 0) (fits : Fits (large.toRat + small.toRat)) :
    small.drawnTo large = small := by
  rw [drawnTo]
  refine if_neg fun far => ?_
  generalize hlast : min large.exponent (large.leading - precision) = last at far
  have small_lt : |small.toRat| < 10 ^ last :=
    (leading_lt_iff hs last).1 (by omega)
  have sum_ge : 10 ^ (large.leading - 1) ≤ |large.toRat + small.toRat| := by
    have large_ge := ten_zpow_leading_le hl
    have below : |small.toRat| < 10 ^ (large.leading - 1) :=
      (leading_lt_iff hs _).1 (by omega)
    have tens : (10 : ℚ) ^ large.leading = 10 * 10 ^ (large.leading - 1) := by
      rw [← zpow_one_add₀ (by norm_num)]
      congr 1
      omega
    have triangle := abs_sub_abs_le_abs_sub large.toRat (-small.toRat)
    rw [abs_neg, sub_neg_eq_add] at triangle
    have := ten_zpow_pos (large.leading - 1)
    linarith
  -- both the sum and the greater number are multiples of a unit of the place `last`
  obtain ⟨k, hk⟩ := exists_multiple_of_fits fits sum_ge last (by omega)
  have multiple : small.toRat = (k - large.scaled last : ℤ) * 10 ^ last := by
    have := scaled_mul (d := large) (e := last) (by omega)
    push_cast
    linarith
  have nonzero : k - large.scaled last ≠ 0 := by
    intro zero
    rw [zero, Int.cast_zero, zero_mul, toRat_eq_zero_iff] at multiple
    exact hs multiple
  -- so is the smaller number, which is too small for that
  have one_le : (1 : ℚ) ≤ |((k - large.scaled last : ℤ) : ℚ)| := by
    exact_mod_cast Int.one_le_abs nonzero
  rw [multiple, abs_mul, abs_of_pos (ten_zpow_pos last)] at small_lt
  have := le_mul_of_one_le_left (ten_zpow_pos last).le one_le
  linarith

/-- A sum that fits is exact, also where the smaller number was replaced by one that cannot be told
apart from it. -/
theorem addBelow_of_fits {large small : Decimal} (hl : large.coefficient ≠ 0)
    (hs : small.coefficient ≠ 0) (fits : Fits (large.toRat + small.toRat)) :
    ∃ r, addBelow large small = .ok r ∧ r.toRat = large.toRat + small.toRat := by
  rw [addBelow, drawnTo_eq_self hl hs fits]
  refine nearest_eq_of_fits Nat.one_ne_zero ?_ fits
  have hlarge := scaled_mul (Int.min_le_left large.exponent small.exponent)
  have hsmall := scaled_mul (Int.min_le_right large.exponent small.exponent)
  generalize min large.exponent small.exponent = e at *
  rw [← hlarge, ← hsmall, ← add_mul, ← Int.cast_add]
  generalize large.scaled e + small.scaled e = n
  rw [Nat.cast_one, div_one, ← mul_assoc, signFactor_mul_natAbs]

/-- A sum that fits is exact. -/
theorem add_of_fits (fits : Fits (a.toRat + b.toRat)) :
    ∃ r, add a b = .ok r ∧ r.toRat = a.toRat + b.toRat := by
  rw [add]
  split
  · next ha =>
    rw [(isZero_iff a).1 ha, zero_add] at fits ⊢
    exact rounded_of_fits fits
  next ha =>
  split
  · next hb =>
    rw [(isZero_iff b).1 hb, add_zero] at fits ⊢
    exact rounded_of_fits fits
  next hb =>
  rw [isZero_iff, toRat_eq_zero_iff] at ha hb
  split
  · rw [add_comm] at fits ⊢
    exact addBelow_of_fits hb ha fits
  · exact addBelow_of_fits ha hb fits

/-- A difference that fits is exact. -/
theorem sub_of_fits (fits : Fits (a.toRat - b.toRat)) :
    ∃ r, sub a b = .ok r ∧ r.toRat = a.toRat - b.toRat := by
  rw [sub_eq_add_neg, ← toRat_flip] at fits ⊢
  exact add_of_fits fits

/-! ## Results -/

/-- What was rounded has no more digits than the precision and an exponent in range. -/
theorem isResult_rounded {r : Decimal} (h : d.rounded = .ok r) : r.IsResult :=
  isResult_of_nearest Nat.one_ne_zero h

/-- A sum is a result. -/
theorem isResult_add {r : Decimal} (h : add a b = .ok r) : r.IsResult := by
  rw [add] at h
  split at h
  · exact isResult_rounded h
  split at h
  · exact isResult_rounded h
  split at h
  · exact isResult_of_nearest Nat.one_ne_zero h
  · exact isResult_of_nearest Nat.one_ne_zero h

/-- A product is a result. -/
theorem isResult_mul {r : Decimal} (h : mul a b = .ok r) : r.IsResult :=
  isResult_of_nearest Nat.one_ne_zero h

/-- A quotient is a result. -/
theorem isResult_div {r : Decimal} (h : div a b = .ok r) : r.IsResult := by
  rw [div] at h
  split at h
  · cases h
  · next nonzero =>
    rw [isZero_iff, toRat_eq_zero_iff] at nonzero
    exact isResult_of_nearest nonzero h

end TexAlgebra.Decimal
