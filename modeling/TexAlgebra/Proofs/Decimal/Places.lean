import TexAlgebra.Proofs.Decimal.Rounding
import Mathlib.Data.Rat.Floor
/-!
# Digits after the point

A number can be written exactly with any number of digits after the point from a least one on.
`Decimal.withPlaces_eq` says what asking for as many digits gives: the same number with these
digits, unless it would have more of them than a result has.
-/

namespace TexAlgebra.Decimal

variable {d : Decimal} {q : ℚ} {k digits : ℕ}

/-! ## Exact numbers of places -/

/-- The numbers of digits after the point with which `q` can be written exactly. -/
def exactPlaces (q : ℚ) : Set ℕ := {k | ∃ n : ℤ, q * 10 ^ k = n}

/-- A number has the places that it is written with, and more. -/
theorem mem_exactPlaces_of_places_le (h : d.places ≤ k) : k ∈ exactPlaces d.toRat := by
  have low : -(k : ℤ) ≤ d.exponent := by
    rw [places] at h
    omega
  refine ⟨d.scaled (-k), ?_⟩
  rw [← scaled_mul low, mul_assoc, ← zpow_natCast, ← ten_zpow_add, neg_add_cancel, zpow_zero,
    mul_one]

/-- With more places a number stays exact. -/
theorem mem_exactPlaces_of_le {f : ℕ} (h : f ∈ exactPlaces q) (le : f ≤ k) : k ∈ exactPlaces q := by
  obtain ⟨n, units⟩ := h
  obtain ⟨j, rfl⟩ := Nat.exists_eq_add_of_le le
  refine ⟨n * 10 ^ j, ?_⟩
  rw [pow_add, ← mul_assoc, units]
  push_cast
  rfl

/-- In units of a place after which nothing is left the size of a number is whole. -/
theorem exists_units (h : k ∈ exactPlaces q) : ∃ n : ℕ, |q| * 10 ^ k = n := by
  obtain ⟨n, units⟩ := h
  refine ⟨n.natAbs, ?_⟩
  rw [Nat.cast_natAbs, Int.cast_abs, ← units, abs_mul,
    abs_of_pos (by positivity : (0 : ℚ) < 10 ^ k)]

/-- Without zeros at its end a number has as few digits after the point as possible. -/
theorem isLeast_places_stripped (d : Decimal) :
    IsLeast (exactPlaces d.toRat) d.stripped.places := by
  refine ⟨toRat_stripped d ▸ mem_exactPlaces_of_places_le le_rfl, ?_⟩
  rintro k ⟨n, units⟩
  by_cases zero : d.coefficient = 0
  · rw [stripped, if_pos zero]
    exact Nat.zero_le k
  · have whole := toRat_shifted d.stripped k
    rw [toRat_stripped, zpow_natCast, units] at whole
    have := exponent_nonneg_of_whole whole (coefficient_stripped_mod zero)
    rw [places]
    dsimp only at this
    omega

/-! ## Numbers with a number of places -/

/-- The number `q` with `k` digits after the point; what is left of it behind them is dropped. -/
def toPlaces (q : ℚ) (k : ℕ) : Decimal := ⟨decide (q < 0), ⌊|q| * 10 ^ k⌋₊, -k⟩

/-- With enough places the number of units gives the value back. -/
theorem toRat_units (h : k ∈ exactPlaces q) (negative : Bool) :
    toRat ⟨negative, ⌊|q| * 10 ^ k⌋₊, -k⟩ = signFactor negative * |q| := by
  obtain ⟨n, units⟩ := exists_units h
  have size : (n : ℚ) * 10 ^ (-(k : ℤ)) = |q| := by
    rw [← units, mul_assoc, ← zpow_natCast, ← ten_zpow_add, add_neg_cancel, zpow_zero, mul_one]
  rw [units, Nat.floor_natCast, toRat_mk, size]

/-- With enough places nothing is lost. -/
theorem toRat_toPlaces (h : k ∈ exactPlaces q) : (toPlaces q k).toRat = q := by
  rw [toPlaces, toRat_units h]
  rcases lt_or_ge q 0 with below | above
  · rw [decide_eq_true below, signFactor_true, abs_of_neg below, neg_one_mul, neg_neg]
  · rw [decide_eq_false (not_lt.2 above), signFactor_false, abs_of_nonneg above, one_mul]

/-- The size of a number in units of its last place is its coefficient. -/
theorem abs_toRat_mul (h : d.exponent = -k) : |d.toRat| * 10 ^ k = d.coefficient := by
  rw [abs_toRat, h, mul_assoc, ← zpow_natCast, ← ten_zpow_add, neg_add_cancel, zpow_zero, mul_one]

/-- A number is determined by its value, the number of its places and its sign, which only a zero
does not get from its value. -/
theorem eq_toPlaces (sign : d.negative = decide (d.toRat < 0)) (h : d.exponent = -k) :
    d = toPlaces d.toRat k := by
  rw [toPlaces, abs_toRat_mul h, Nat.floor_natCast, ← sign, ← h]

/-! ## Asking for places -/

/-- The coefficient with which a number is written with `k` places. -/
theorem coefficient_at {n : ℕ} (units : |d.toRat| * 10 ^ k = n) :
    (if -(k : ℤ) ≤ d.exponent then d.coefficient * tenTo (d.exponent + k).toNat
      else roundDiv d.coefficient (tenTo (-(k : ℤ) - d.exponent).toNat)) = n := by
  rw [abs_toRat, mul_assoc, ← zpow_natCast, ← ten_zpow_add] at units
  split
  · next finer =>
    rw [← cast_tenTo_toNat (by omega), ← Nat.cast_mul] at units
    exact Nat.cast_injective units
  · next coarser =>
    -- the digits that are taken away are zeros
    obtain ⟨j, hj⟩ : ∃ j : Nat, -(k : ℤ) = d.exponent + j :=
      ⟨(-(k : ℤ) - d.exponent).toNat, by omega⟩
    have multiple : (d.coefficient : ℚ) = (n * tenTo j : Nat) := by
      have back : d.exponent + k + j = 0 := by omega
      rw [Nat.cast_mul, ← units, cast_tenTo, mul_assoc, ← ten_zpow_add, back, zpow_zero, mul_one]
    have gap : (-(k : ℤ) - d.exponent).toNat = j := by omega
    rw [gap, Nat.cast_injective multiple, roundDiv_mul (tenTo_pos j).ne']

/-- The place of its leading digit tells whether a number with `k` places has too many digits. -/
theorem lt_leading_add_iff (nonzero : d.coefficient ≠ 0) :
    (precision : ℤ) < d.leading + k + 1 ↔ 10 ^ precision ≤ |d.toRat| * 10 ^ k := by
  have size : |d.toRat| * 10 ^ k < 10 ^ precision ↔ |d.toRat| < 10 ^ ((precision : ℤ) - k) := by
    rw [← zpow_natCast, ← zpow_natCast, zpow_sub₀ (by norm_num), lt_div_iff₀ (ten_zpow_pos _)]
  rw [← not_lt, size, ← leading_lt_iff nonzero]
  omega

/-- A number gets the places that are asked for, but no more of them than the smallest result has,
unless it has too many digits then. -/
theorem withPlaces_eq {shown : ℕ} (few : digits ≤ maxPlaces)
    (least : min digits (-minExponent).toNat = shown) (exactly : shown ∈ exactPlaces d.toRat) :
    d.withPlaces digits =
      if d.toRat ≠ 0 ∧ 10 ^ precision ≤ |d.toRat| * 10 ^ shown then .error .invalid
      else .ok ⟨d.negative, ⌊|d.toRat| * 10 ^ shown⌋₊, -shown⟩ := by
  obtain ⟨n, units⟩ := exists_units exactly
  rw [withPlaces, least]
  simp only [not_lt.2 few, if_false]
  by_cases zero : d.coefficient = 0
  · have none := (toRat_eq_zero_iff d).2 zero
    rw [if_pos zero, if_neg (not_and.2 fun nonzero => absurd none nonzero), none, abs_zero,
      zero_mul, Nat.floor_zero]
  have nonzero : d.toRat ≠ 0 := mt (toRat_eq_zero_iff d).1 zero
  rw [if_neg zero, coefficient_at units]
  by_cases many : (10 : ℚ) ^ precision ≤ |d.toRat| * 10 ^ shown
  · rw [if_pos ((lt_leading_add_iff zero).2 many), if_pos ⟨nonzero, many⟩]
  · have count : ¬ precision < digitCount n := by
      rw [not_lt, digitCount_le_iff (by decide)]
      rw [units] at many
      exact_mod_cast not_le.1 many
    rw [if_neg (mt (lt_leading_add_iff zero).1 many), if_neg count, if_neg fun both => many both.2,
      units, Nat.floor_natCast]

/-- At least as many digits after the point as a number needs do not change it. -/
theorem toRat_withPlaces {r : Decimal}
    (exactly : min digits (-minExponent).toNat ∈ exactPlaces d.toRat)
    (h : d.withPlaces digits = .ok r) : r.toRat = d.toRat := by
  by_cases few : digits ≤ maxPlaces
  · rw [withPlaces_eq few rfl exactly] at h
    split at h
    · cases h
    · cases h
      rw [toRat_units exactly, ← toRat_eq_signFactor_mul_abs]
  · rw [withPlaces] at h
    dsimp only at h
    rw [if_pos (not_le.1 few)] at h
    cases h

/-- A number that is written with some places is a result with few digits. -/
theorem isResult_withPlaces {d r : Decimal} {places : Nat} (h : d.withPlaces places = .ok r) :
    r.IsResult ∧ r.coefficient < tenTo precision := by
  have smallest : minExponent = -1000026 := rfl
  have largest : maxExponent = 999999 := rfl
  have limit : precision = 28 := rfl
  rw [withPlaces] at h
  generalize hshown : min places (-minExponent).toNat = shown at h
  dsimp only at h
  have form : ∀ c : Nat, (if precision < digitCount c then Except.error Signal.invalid
      else .ok (⟨d.negative, c, -shown⟩ : Decimal)) = .ok r →
        r.IsResult ∧ r.coefficient < tenTo precision := by
    intro c h
    split at h
    · cases h
    next few =>
    cases h
    have digits := (digitCount_le_iff (by decide)).1 (not_lt.1 few)
    refine ⟨⟨digits.le, ?_, ?_⟩, digits⟩
    · simp only
      omega
    · simp only [leading]
      omega
  split at h
  · cases h
  split at h
  · exact form 0 h
  split at h
  · cases h
  · exact form _ h

end TexAlgebra.Decimal
