import TexAlgebra.Proofs.Decimal.Comparison
import TexAlgebra.Proofs.Decimal.Nearest
/-!
# Operations on the values of decimal numbers

Sums, differences, products and quotients are the exact ones, rounded: `Decimal.outcome_add` and the
lemmas beside it. Powers are equal for operands of equal values (`Decimal.pow_congr`). So no
operation depends on how its operands are written.
-/

namespace TexAlgebra.Decimal

variable {a b : Decimal}

/-! ## Products and quotients -/

/-- A number is rounded as its value is. -/
theorem outcome_rounded (d : Decimal) : outcome d.rounded = rounding? d.toRat := by
  rw [rounded, outcome_nearest _ _ _ Nat.one_ne_zero, Nat.cast_one, div_one, toRat]

/-- With a plus sign a number is rounded as its value is. -/
theorem outcome_pos (d : Decimal) : outcome d.pos = rounding? d.toRat := outcome_rounded d

/-- With a minus sign a number is rounded as the opposite of its value is. -/
theorem outcome_neg (d : Decimal) : outcome d.neg = rounding? (-d.toRat) := by
  rw [neg, outcome_rounded, toRat_flip]

/-- A product is the product of the values, rounded. -/
theorem outcome_mul (a b : Decimal) : outcome (mul a b) = rounding? (a.toRat * b.toRat) := by
  rw [mul, outcome_nearest _ _ _ Nat.one_ne_zero, signFactor_bne, ten_zpow_add, Nat.cast_mul,
    Nat.cast_one, toRat, toRat]
  congr 1
  ring

/-- A quotient is the quotient of the values, rounded, and there is none by zero. -/
theorem outcome_div (a b : Decimal) :
    outcome (div a b) = if b.toRat = 0 then none else rounding? (a.toRat / b.toRat) := by
  rw [div]
  simp only [isZero_iff b]
  split
  · rfl
  · next nonzero =>
    rw [outcome_nearest _ _ _ (mt (toRat_eq_zero_iff b).2 nonzero), signFactor_bne, sub_eq_add_neg,
      ten_zpow_add, zpow_neg, toRat, toRat]
    congr 1
    rw [div_eq_mul_inv, div_eq_mul_inv, mul_inv, mul_inv, inv_signFactor]
    ring

/-! ## Sums -/

/-- The sum of two numbers in units of a place that both have is rounded like their exact sum. -/
theorem outcome_scaled (a b : Decimal) :
    let e := min a.exponent b.exponent
    let n := a.scaled e + b.scaled e
    outcome (nearest (n < 0) n.natAbs 1 e) = rounding? (a.toRat + b.toRat) := by
  intro e n
  have ha : (a.scaled e : ℚ) * 10 ^ e = a.toRat := scaled_mul (min_le_left _ _)
  have hb : (b.scaled e : ℚ) * 10 ^ e = b.toRat := scaled_mul (min_le_right _ _)
  rw [outcome_nearest _ _ _ Nat.one_ne_zero, Nat.cast_one, div_one, ← mul_assoc,
    signFactor_mul_natAbs, ← ha, ← hb, ← add_mul, ← Int.cast_add]

/-- What is added far below the digits of a number changes its rounding by its sign alone. -/
theorem rounding?_add_congr {d : Decimal} (nonzero : d.coefficient ≠ 0) {place : ℤ}
    (low : place ≤ d.exponent) (far : place + precision < d.leading) (negative : Bool) {x y : ℚ}
    (hx : 0 < x ∧ x < 10 ^ place) (hy : 0 < y ∧ y < 10 ^ place) :
    rounding? (d.toRat + signFactor negative * x) =
      rounding? (d.toRat + signFactor negative * y) := by
  have unit := ten_zpow_pos place
  generalize hm : d.coefficient * tenTo (d.exponent - place).toNat = m
  have units : |d.toRat| = m * 10 ^ place := by
    have shift : d.exponent = (d.exponent - place) + place := by omega
    rw [abs_toRat, ← hm, Nat.cast_mul, cast_tenTo_toNat (by omega), mul_assoc, ← ten_zpow_add,
      ← shift]
  have large : tenTo precision < m := by
    have : (10 : ℚ) ^ ((precision : ℤ) + place) < m * 10 ^ place := by
      rw [← units]
      exact (ten_zpow_lt_iff.2 (by omega)).trans_le (ten_zpow_leading_le nonzero)
    rw [ten_zpow_add, mul_lt_mul_iff_left₀ unit, ← cast_tenTo] at this
    exact_mod_cast this
  have fraction : ∀ {z : ℚ}, 0 < z ∧ z < 10 ^ place →
      0 < z / 10 ^ place ∧ z / 10 ^ place < 1 := fun h =>
    ⟨div_pos h.1 unit, (div_lt_one unit).2 h.2⟩
  -- the sum lies between `m` units and one unit more, or one unit less if the signs differ
  generalize hother : (d.negative != negative) = other
  have sum : ∀ z : ℚ, d.toRat + signFactor negative * z =
      signFactor d.negative * ((m + signFactor other * (z / 10 ^ place)) * 10 ^ place) := by
    intro z
    rw [toRat_eq_signFactor_mul_abs, units, ← hother, signFactor_bne, add_mul, mul_add, mul_assoc,
      mul_assoc, div_mul_cancel₀ _ unit.ne', ← mul_assoc (signFactor d.negative)]
    cases d.negative <;> simp
  have one_lt : (1 : ℚ) < m := by
    have := tenTo_pos precision
    exact_mod_cast (by omega : 1 < m)
  rw [sum, sum]
  cases other with
  | false =>
    have hx := fraction hx
    have hy := fraction hy
    rw [signFactor_false, one_mul, one_mul,
      rounding?_signFactor_mul _ (mul_pos (by linarith) unit),
      rounding?_signFactor_mul _ (mul_pos (by linarith) unit)]
    refine congrArg outcome (nearestTo_congr d.negative large.le ⟨?_, ?_⟩ ⟨?_, ?_⟩) <;> linarith
  | true =>
    have hx := fraction hx
    have hy := fraction hy
    have pred : ((m - 1 : Nat) : ℚ) = m - 1 := by
      rw [Nat.cast_sub (by exact_mod_cast one_lt.le), Nat.cast_one]
    rw [signFactor_true, neg_one_mul, neg_one_mul,
      rounding?_signFactor_mul _ (mul_pos (by linarith) unit),
      rounding?_signFactor_mul _ (mul_pos (by linarith) unit)]
    refine congrArg outcome (nearestTo_congr (m := m - 1) d.negative (by omega) ⟨?_, ?_⟩
      ⟨?_, ?_⟩) <;> rw [pred] <;> linarith

/-- Drawing a small number nearer leaves the rounded sum as it is. -/
theorem rounding?_add_drawnTo {large small : Decimal} (hl : large.coefficient ≠ 0)
    (hs : small.coefficient ≠ 0) :
    rounding? (large.toRat + (small.drawnTo large).toRat) =
      rounding? (large.toRat + small.toRat) := by
  rw [drawnTo]
  generalize hlast : min large.exponent (large.leading - precision) = last
  split
  · next far =>
    have below : |small.toRat| < 10 ^ (last - 2) := (leading_lt_iff hs _).1 (by omega)
    have above : 0 < |small.toRat| := abs_pos.2 ((toRat_eq_zero_iff small).not.2 hs)
    have drawn : toRat ⟨small.negative, 1, last - 3⟩ =
        signFactor small.negative * 10 ^ (last - 3) := by
      rw [toRat_mk, Nat.cast_one, one_mul]
    rw [drawn, toRat_eq_signFactor_mul_abs small]
    exact rounding?_add_congr hl (by omega) (by omega) small.negative
      ⟨ten_zpow_pos _, ten_zpow_lt_iff.2 (by omega)⟩ ⟨above, below⟩
  · rfl

/-- A sum is the sum of the values, rounded, also where the smaller number was replaced. -/
theorem outcome_addBelow {large small : Decimal} (hl : large.coefficient ≠ 0)
    (hs : small.coefficient ≠ 0) :
    outcome (addBelow large small) = rounding? (large.toRat + small.toRat) :=
  (outcome_scaled large (small.drawnTo large)).trans (rounding?_add_drawnTo hl hs)

/-- The result of an addition is the rounded exact sum. -/
theorem outcome_add (a b : Decimal) : outcome (add a b) = rounding? (a.toRat + b.toRat) := by
  rw [add]
  split
  · next ha => rw [(isZero_iff a).1 ha, zero_add, outcome_rounded]
  next ha =>
  split
  · next hb => rw [(isZero_iff b).1 hb, add_zero, outcome_rounded]
  next hb =>
  rw [isZero_iff, toRat_eq_zero_iff] at ha hb
  split
  · rw [outcome_addBelow hb ha, add_comm]
  · exact outcome_addBelow ha hb

/-- A difference is the difference of the values, rounded. -/
theorem outcome_sub (a b : Decimal) : outcome (sub a b) = rounding? (a.toRat - b.toRat) := by
  rw [sub, outcome_add, toRat_flip, sub_eq_add_neg]

/-! ## Powers -/

/-- It depends on the value whether a number is whole. -/
theorem isWhole_congr (same : a.toRat = b.toRat) : a.isWhole = b.isWhole := by
  rw [Bool.eq_iff_iff, isWhole_iff, isWhole_iff, same]

/-- Powers depend on the values of base and exponent alone. -/
theorem pow_congr {c d : Decimal} (base : a.toRat = c.toRat) (exponent : b.toRat = d.toRat) :
    pow a b = pow c d := by
  by_cases zero : b.toRat = 0
  · rw [pow, pow, if_pos ((isZero_iff b).2 zero), if_pos ((isZero_iff d).2 (exponent ▸ zero)),
      isZero_congr base]
  have zero' : d.toRat ≠ 0 := exponent ▸ zero
  rw [pow, pow, if_neg (mt (isZero_iff b).1 zero), if_neg (mt (isZero_iff d).1 zero')]
  rw [isZero_congr base, negative_eq_of_toRat_eq exponent zero]
  split
  · rfl
  next nonzero =>
  rw [isZero_iff, ← base] at nonzero
  have magnitude : a.magnitude.stripped = c.magnitude.stripped :=
    stripped_congr (by rw [toRat_magnitude, toRat_magnitude, base])
      (by rwa [toRat_magnitude, Ne, abs_eq_zero])
  rw [negative_eq_of_toRat_eq base nonzero, isWhole_congr exponent, magnitude,
    stripped_congr exponent zero]

end TexAlgebra.Decimal
