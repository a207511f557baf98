import Mathlib.Algebra.Order.Floor.Semifield
import Mathlib.Data.Int.Log
import Mathlib.Data.Rat.Floor
import TexAlgebra.Proofs.Decimal.Rounding
/-!
# Rounding as a function of the exact value

Rounding works on numerator, denominator and exponent of an exact result, but what it finds depends
on the exact result alone: `Decimal.outcome_nearest`. It is the same for all numbers that lie
between two neighbouring multiples of a power of ten far enough below their leading digit
(`Decimal.nearestTo_congr`), since no power of ten, no multiple of a unit of the last place and no
tie lies in between.
-/

namespace TexAlgebra.Decimal

/-! ## Whole numbers -/

/-- The whole number nearest to a positive `q`, a tie going to the even neighbour. -/
def halfEven (q : ℚ) : Nat :=
  if q - ⌊q⌋₊ < 1 / 2 then ⌊q⌋₊
  else if 1 / 2 < q - ⌊q⌋₊ then ⌊q⌋₊ + 1
  else ⌊q⌋₊ + ⌊q⌋₊ % 2

/-- A quotient is rounded to the nearest whole number, and to the even one of two. -/
theorem roundDiv_eq_halfEven (num : Nat) {den : Nat} (positive : den ≠ 0) :
    roundDiv num den = halfEven (num / den) := by
  have hden : (0 : ℚ) < den := by exact_mod_cast Nat.pos_of_ne_zero positive
  have whole : ⌊(num : ℚ) / den⌋₊ = num / den := Rat.natFloor_natCast_div_natCast num den
  have rest : (num : ℚ) / den - (num / den : Nat) = (num % den : Nat) / den := by
    rw [sub_eq_iff_eq_add, div_add' _ _ _ hden.ne']
    congr 1
    exact_mod_cast (Nat.mod_add_div' num den).symm
  have low : ((num % den : Nat) : ℚ) / den < 1 / 2 ↔ 2 * (num % den) < den := by
    rw [div_lt_div_iff₀ hden (by norm_num), one_mul, mul_comm]
    exact_mod_cast Iff.rfl
  have high : 1 / 2 < ((num % den : Nat) : ℚ) / den ↔ den < 2 * (num % den) := by
    rw [div_lt_div_iff₀ (by norm_num) hden, one_mul, mul_comm]
    exact_mod_cast Iff.rfl
  rw [halfEven, whole, rest, roundDiv]
  simp only [low, high]

/-! ## Leading digits -/

/-- The place of the leading digit lies between two powers of ten. -/
theorem log_eq {q : ℚ} {k : ℤ} (low : 10 ^ k ≤ q) (high : q < 10 ^ (k + 1)) : Int.log 10 q = k := by
  have positive : 0 < q := (ten_zpow_pos k).trans_le low
  have ge : k ≤ Int.log 10 q :=
    (Int.zpow_le_iff_le_log (by decide) positive).1 (by exact_mod_cast low)
  have lt : Int.log 10 q < k + 1 :=
    (Int.lt_zpow_iff_log_lt (by decide) positive).1 (by exact_mod_cast high)
  omega

/-- A number is not below the power of ten of its leading digit. -/
theorem ten_zpow_log_le {q : ℚ} (positive : 0 < q) : 10 ^ Int.log 10 q ≤ q := by
  exact_mod_cast Int.zpow_log_le_self (b := 10) (by decide) positive

/-- A number is below the next power of ten. -/
theorem lt_ten_zpow_log (q : ℚ) : q < 10 ^ (Int.log 10 q + 1) := by
  exact_mod_cast Int.lt_zpow_succ_log_self (b := 10) (by decide) q

/-- A power of ten moves the leading digit. -/
theorem log_mul_ten_zpow {q : ℚ} (positive : 0 < q) (e : ℤ) :
    Int.log 10 (q * 10 ^ e) = Int.log 10 q + e := by
  refine log_eq ?_ ?_
  · rw [ten_zpow_add]
    exact mul_le_mul_of_nonneg_right (ten_zpow_log_le positive) (ten_zpow_pos _).le
  · rw [add_right_comm, ten_zpow_add]
    exact mul_lt_mul_of_pos_right (lt_ten_zpow_log q) (ten_zpow_pos _)

/-- The leading digit of a quotient can be told from whole numbers. -/
theorem log_div {num den : Nat} (hnum : num ≠ 0) (hden : den ≠ 0) :
    Int.log 10 ((num : ℚ) / den) = leadingExponent num den := by
  obtain ⟨low, high⟩ := leadingExponent_spec hnum hden
  exact log_eq low high

/-! ## Results -/

/-- The result of an operation whose exact result is a positive number `q` under a sign. -/
def nearestTo (negative : Bool) (q : ℚ) : Except Signal Decimal :=
  if maxExponent < Int.log 10 q then .error .overflow
  else if Int.log 10 q < minExponent - 1 then .ok ⟨negative, 0, minExponent⟩
  else
    let last := max (Int.log 10 q - precision + 1) minExponent
    let result : Decimal := ⟨negative, halfEven (q / 10 ^ last), last⟩
    if maxExponent < result.leading then .error .overflow else .ok result

/-- Rounding depends on the exact result alone. -/
theorem nearest_eq_nearestTo {negative : Bool} {num den : Nat} (exponent : ℤ) (hnum : num ≠ 0)
    (hden : den ≠ 0) :
    nearest negative num den exponent = nearestTo negative (num / den * 10 ^ exponent) := by
  have size : (0 : ℚ) < num / den :=
    div_pos (by exact_mod_cast Nat.pos_of_ne_zero hnum) (by exact_mod_cast Nat.pos_of_ne_zero hden)
  rw [nearest, nearestWith, if_neg hnum, nearestTo, log_mul_ten_zpow size, log_div hnum hden,
    leastExponent_precision]
  generalize leadingExponent num den = leading
  -- the last place is chosen before the exponent is added on one side, and after it on the other
  generalize before : max (leading - precision + 1) (minExponent - exponent) = last
  generalize after : max (leading + exponent - precision + 1) minExponent = last'
  have places : last' = last + exponent := by omega
  have digits : roundDiv (num * tenTo (-last).toNat) (den * tenTo last.toNat) =
      halfEven ((num : ℚ) / den * 10 ^ exponent / 10 ^ last') := by
    rw [roundDiv_eq_halfEven _ (Nat.mul_ne_zero hden (tenTo_pos _).ne')]
    congr 1
    have h := ten_zpow_eq_div last
    have hup : ((tenTo last.toNat : Nat) : ℚ) ≠ 0 := by exact_mod_cast (tenTo_pos _).ne'
    have hdown : ((tenTo (-last).toNat : Nat) : ℚ) ≠ 0 := by exact_mod_cast (tenTo_pos _).ne'
    have hden' : (den : ℚ) ≠ 0 := by exact_mod_cast hden
    rw [places, ten_zpow_add, mul_div_mul_right _ _ (ten_zpow_pos exponent).ne', h]
    push_cast
    field_simp
  simp only [atPlace, digits, before, places]

/-! ## Neighbours -/

/-- A fraction of a number between two whole numbers is rounded like that of the lower one, if the
middle between two results is a whole number as well. -/
theorem halfEven_div {m half : Nat} {x : ℚ} (positive : 0 < half) (low : m < x)
    (high : x < m + 1) :
    halfEven (x / (2 * half : Nat)) =
      if m < 2 * half * (m / (2 * half)) + half then m / (2 * half) else m / (2 * half) + 1 := by
  have below : ⌊x⌋₊ = m := (Nat.floor_eq_iff ((Nat.cast_nonneg m).trans low.le)).2 ⟨low.le, high⟩
  have unit : (0 : ℚ) < (2 * half : Nat) := by exact_mod_cast Nat.mul_pos two_pos positive
  have whole : ⌊x / (2 * half : Nat)⌋₊ = m / (2 * half) := by
    rw [Nat.floor_div_natCast, below]
  rw [halfEven, whole]
  generalize m / (2 * half) = k
  have middle : ((2 * half * k + half : Nat) : ℚ) = (k + 1 / 2) * (2 * half : Nat) := by
    push_cast
    ring
  by_cases lower : m < 2 * half * k + half
  · have beneath : x < (2 * half * k + half : Nat) :=
      high.trans_le (by exact_mod_cast lower)
    rw [middle, ← div_lt_iff₀ unit] at beneath
    rw [if_pos lower, if_pos (by linarith)]
  · have above : ((2 * half * k + half : Nat) : ℚ) < x :=
      lt_of_le_of_lt (by exact_mod_cast not_lt.1 lower) low
    rw [middle, ← lt_div_iff₀ unit] at above
    rw [if_neg lower, if_neg (by linarith), if_pos (by linarith)]

/-- Two numbers between the same whole numbers have their leading digits in one place. -/
theorem log_congr {m : Nat} {x y : ℚ} (large : 0 < m) (hx : m < x ∧ x < m + 1)
    (hy : m < y ∧ y < m + 1) : Int.log 10 x = Int.log 10 y := by
  have hm : (1 : ℚ) ≤ m := by exact_mod_cast large
  have positive : 0 < x := by linarith
  have nonneg : 0 ≤ Int.log 10 x :=
    (Int.zpow_le_iff_le_log (by decide) positive).1 (by simpa using (hm.trans hx.1.le))
  -- the powers of ten on either side of `x` are whole numbers
  have low := ten_zpow_log_le positive
  have high := lt_ten_zpow_log x
  generalize Int.log 10 x = leading at *
  have whole : ∀ {e : ℤ}, 0 ≤ e → (10 : ℚ) ^ e = (tenTo e.toNat : Nat) :=
    fun h => (cast_tenTo_toNat h).symm
  rw [whole nonneg] at low
  rw [whole (by omega)] at high
  have low' : tenTo leading.toNat ≤ m := by
    have : ((tenTo leading.toNat : Nat) : ℚ) < (m + 1 : Nat) := by
      push_cast
      linarith
    have := Nat.cast_lt.1 this
    omega
  have high' : m < tenTo (leading + 1).toNat := by
    have := hx.1.trans high
    exact_mod_cast this
  refine (log_eq ?_ ?_).symm
  · rw [whole nonneg]
    have : ((tenTo leading.toNat : Nat) : ℚ) ≤ m := by exact_mod_cast low'
    linarith
  · rw [whole (by omega)]
    have : ((m + 1 : Nat) : ℚ) ≤ (tenTo (leading + 1).toNat : Nat) := by exact_mod_cast high'
    push_cast at this
    linarith

/-- Numbers between two neighbouring multiples of a power of ten are rounded alike if they have more
digits above it than a result. -/
theorem nearestTo_congr (negative : Bool) {m : Nat} {place : ℤ} {x y : ℚ}
    (large : tenTo precision ≤ m) (hx : m < x ∧ x < m + 1) (hy : m < y ∧ y < m + 1) :
    nearestTo negative (x * 10 ^ place) = nearestTo negative (y * 10 ^ place) := by
  have hm : ((tenTo precision : Nat) : ℚ) ≤ m := by exact_mod_cast large
  have one_le : (1 : ℚ) ≤ (tenTo precision : Nat) := by exact_mod_cast tenTo_pos precision
  have positive : 0 < x := by linarith [hx.1]
  have leads : (precision : ℤ) ≤ Int.log 10 x :=
    (Int.zpow_le_iff_le_log (by decide) positive).1
      (by exact_mod_cast (cast_tenTo precision ▸ hm).trans hx.1.le)
  have same := log_congr ((tenTo_pos precision).trans_le large) hx hy
  rw [nearestTo, nearestTo, log_mul_ten_zpow positive, log_mul_ten_zpow (by linarith [hy.1]),
    ← same]
  generalize Int.log 10 x = leading at leads
  generalize hlast : max (leading + place - precision + 1) minExponent = last
  -- the unit of the last place is a multiple of ten, so its half is a whole number
  obtain ⟨k, hk⟩ : ∃ k, (last - place).toNat = k + 1 := ⟨(last - place).toNat - 1, by omega⟩
  have unit : ∀ z : ℚ, z * 10 ^ place / 10 ^ last = z / (2 * (5 * tenTo k) : Nat) := by
    intro z
    have split : last = place + (last - place) := by omega
    rw [split, ten_zpow_add, ← cast_tenTo_toNat (by omega : 0 ≤ last - place), hk, tenTo_succ,
      ← Nat.mul_assoc, Nat.mul_comm (tenTo k), mul_comm z,
      mul_div_mul_left _ _ (ten_zpow_pos place).ne']
  have half : 0 < 5 * tenTo k := Nat.mul_pos (by decide) (tenTo_pos k)
  simp only [unit, halfEven_div half hx.1 hx.2, halfEven_div half hy.1 hy.2]

/-! ## Outcomes -/

/-- The rational number that the result of a computation stands for, if it has a result. -/
def outcome (x : Except Signal Decimal) : Option ℚ := x.toOption.map toRat

/-- The number to which the exact result `q` of an operation is rounded, unless it is too large. -/
def rounding? (q : ℚ) : Option ℚ :=
  if q = 0 then some 0 else outcome (nearestTo (q < 0) |q|)

/-- Rounding does not depend on the sign. -/
theorem rounding?_signFactor_mul (negative : Bool) {q : ℚ} (positive : 0 < q) :
    rounding? (signFactor negative * q) = outcome (nearestTo negative q) := by
  have sign : decide (signFactor negative * q < 0) = negative := by
    cases negative <;> simp [positive, positive.le]
  rw [rounding?, if_neg (mul_ne_zero (signFactor_ne_zero negative) positive.ne'), sign, abs_mul,
    abs_signFactor, one_mul, abs_of_pos positive]

/-- A quotient of whole numbers is rounded as its value is. -/
theorem outcome_nearest (negative : Bool) (num : Nat) {den : Nat} (exponent : ℤ) (hden : den ≠ 0) :
    outcome (nearest negative num den exponent) =
      rounding? (signFactor negative * (num / den * 10 ^ exponent)) := by
  rcases eq_or_ne num 0 with rfl | hnum
  · simp [nearest, nearestWith, rounding?, outcome, Except.toOption, toRat]
  · have size : (0 : ℚ) < num / den * 10 ^ exponent :=
      mul_pos (div_pos (by exact_mod_cast Nat.pos_of_ne_zero hnum)
        (by exact_mod_cast Nat.pos_of_ne_zero hden)) (ten_zpow_pos _)
    rw [nearest_eq_nearestTo exponent hnum hden, rounding?_signFactor_mul negative size]

end TexAlgebra.Decimal
