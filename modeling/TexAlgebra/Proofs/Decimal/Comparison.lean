import TexAlgebra.Proofs.Numeral.Canonical
/-!
# Comparison of decimal numbers

Decimal numbers are compared digit by digit, after their zeros at the end were taken away, and a
number is tested for being whole by looking for zeros after the point. Both tests say what they
should of the numbers themselves: `Decimal.sameValue_iff` and `Decimal.isWhole_iff`.
-/

namespace TexAlgebra.Decimal

variable {a b d : Decimal}

/-- Two numbers of one value that is not zero have one sign. -/
theorem negative_eq_of_toRat_eq (same : a.toRat = b.toRat) (nonzero : a.toRat ≠ 0) :
    a.negative = b.negative := by
  have opposite : ∀ {x y : Decimal}, x.negative = true → y.negative = false →
      x.toRat = y.toRat → x.toRat = 0 := by
    intro x y negative positive eq
    exact le_antisymm (toRat_nonpos negative) (eq ▸ toRat_nonneg positive)
  cases ha : a.negative <;> cases hb : b.negative
  · rfl
  · exact absurd (opposite hb ha same.symm) (same ▸ nonzero)
  · exact absurd (opposite ha hb same) nonzero
  · rfl

/-- A number other than zero is determined by its value once it has no zeros at its end. -/
theorem eq_of_toRat_eq (same : a.toRat = b.toRat) (bare : a.coefficient % 10 ≠ 0)
    (bare' : b.coefficient % 10 ≠ 0) : a = b := by
  obtain ⟨k, exponent, coefficient⟩ := exists_zeros same bare
  have nonzero : a.toRat ≠ 0 := by
    rw [Ne, toRat_eq_zero_iff]
    rintro zero
    exact bare (by rw [zero])
  obtain rfl : k = 0 := by
    rcases Nat.eq_zero_or_eq_succ_pred k with zero | positive
    · exact zero
    · rw [coefficient, positive, tenTo_succ, ← Nat.mul_assoc, Nat.mul_mod_left] at bare'
      exact absurd rfl bare'
  have sign := negative_eq_of_toRat_eq same nonzero
  cases a
  cases b
  simp only [tenTo_zero, Nat.mul_one, Int.natCast_zero, Int.add_zero] at coefficient exponent sign
  rw [coefficient, exponent, sign]

/-- Without the zeros at their ends two numbers of one value are one. -/
theorem stripped_congr (same : a.toRat = b.toRat) (nonzero : a.toRat ≠ 0) :
    a.stripped = b.stripped := by
  have ha : a.coefficient ≠ 0 := (toRat_eq_zero_iff a).not.1 nonzero
  have hb : b.coefficient ≠ 0 := (toRat_eq_zero_iff b).not.1 (same ▸ nonzero)
  exact eq_of_toRat_eq (by rw [toRat_stripped, toRat_stripped, same])
    (coefficient_stripped_mod ha) (coefficient_stripped_mod hb)

/-- It depends on the value whether a number is zero. -/
theorem isZero_congr (same : a.toRat = b.toRat) : a.isZero = b.isZero := by
  rw [Bool.eq_iff_iff, isZero_iff, isZero_iff, same]

/-- Two numbers compare equal just if they have the same value. -/
theorem sameValue_iff : a.sameValue b = true ↔ a.toRat = b.toRat := by
  refine ⟨toRat_eq_of_sameValue, fun same => ?_⟩
  rw [sameValue, beq_iff_eq, canonical, canonical, isZero_congr same]
  split
  · rfl
  · next nonzero =>
    rw [isZero_iff, ← same] at nonzero
    exact stripped_congr same nonzero

/-- A number is found to be whole just if it is. -/
theorem isWhole_iff : d.isWhole = true ↔ ∃ n : ℤ, d.toRat = n := by
  rw [isWhole, Bool.or_eq_true, Bool.and_eq_true, decide_eq_true_iff, beq_iff_eq]
  constructor
  · rintro (zero | ⟨-, multiple⟩)
    · exact ⟨0, by rw [(isZero_iff d).1 zero, Int.cast_zero]⟩
    -- the digits after the point are zeros, so they can be left out
    have size : |d.toRat| = (d.coefficient / tenTo d.places * tenTo d.exponent.toNat : Nat) := by
      have digits := Nat.div_add_mod d.coefficient (tenTo d.places)
      rw [multiple, Nat.add_zero] at digits
      rw [abs_toRat, ten_zpow_eq_div, Nat.cast_mul]
      rw [show (-d.exponent).toNat = d.places from rfl]
      nth_rewrite 1 [← digits]
      have : ((tenTo d.places : Nat) : ℚ) ≠ 0 := by exact_mod_cast (tenTo_pos _).ne'
      push_cast
      field_simp
    rcases abs_choice d.toRat with positive | negative
    · exact ⟨_, by rw [← positive, size, Int.cast_natCast]⟩
    · refine ⟨-(d.coefficient / tenTo d.places * tenTo d.exponent.toNat : Nat), ?_⟩
      rw [Int.cast_neg, Int.cast_natCast, ← size, negative, neg_neg]
  · rintro ⟨n, whole⟩
    by_cases zero : d.isZero = true
    · exact Or.inl zero
    rw [isZero_iff] at zero
    have size := abs_toRat d
    rw [whole, ← Int.cast_abs, Int.abs_eq_natAbs, Int.cast_natCast] at size
    rcases lt_or_ge d.exponent 0 with fraction | whole
    · have nonzero : ((tenTo d.places : Nat) : ℚ) ≠ 0 := by exact_mod_cast (tenTo_pos _).ne'
      rw [ten_zpow_eq_div, Int.toNat_of_nonpos fraction.le, tenTo_zero, Nat.cast_one, one_div,
        show (-d.exponent).toNat = d.places from rfl, eq_mul_inv_iff_mul_eq₀ nonzero,
        ← Nat.cast_mul, Nat.cast_inj] at size
      have above : n.natAbs ≠ 0 := by
        intro none
        rw [whole, Int.natAbs_eq_zero.1 none, Int.cast_zero] at zero
        exact zero rfl
      have long : tenTo d.places ≤ d.coefficient := by
        rw [← size]
        exact Nat.le_mul_of_pos_left _ (Nat.pos_of_ne_zero above)
      have point : 0 < d.places := by
        rw [places]
        omega
      refine Or.inr ⟨?_, by rw [← size, Nat.mul_mod_left]⟩
      rw [← not_le, digitCount_le_iff point, not_lt]
      exact long
    · have none : d.places = 0 := Int.toNat_of_nonpos (by omega)
      rw [none, tenTo_zero]
      exact Or.inr ⟨digitCount_pos _, Nat.mod_one _⟩

end TexAlgebra.Decimal
