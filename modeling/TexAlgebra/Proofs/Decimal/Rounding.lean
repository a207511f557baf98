import TexAlgebra.Proofs.Decimal.Value
/-!
# Rounding

A rational number `Fits` if a result of an operation can stand for it. Rounding leaves these numbers
alone and yields no others: `nearest_of_fits` and `isResult_of_nearest`.
-/

namespace TexAlgebra.Decimal

/-! ## Numbers that need no rounding -/

/-- Whether `q` has the form of a result: at most `precision` significant digits, the last of them
no lower than the exponents reach, and a leading digit within their range. -/
def Fits (q : ℚ) : Prop :=
  ∃ (c : ℤ) (e : ℤ), q = c * 10 ^ e ∧ |c| < tenTo precision ∧ minExponent ≤ e ∧
    |q| < 10 ^ (maxExponent + 1)

/-- The opposite of what fits does. -/
theorem fits_neg {q : ℚ} (h : Fits q) : Fits (-q) := by
  obtain ⟨c, e, rfl, digits, low, high⟩ := h
  refine ⟨-c, e, ?_, ?_, low, ?_⟩
  · rw [Int.cast_neg, neg_mul]
  · rwa [abs_neg]
  · rwa [abs_neg]

/-- It does not depend on the sign whether a number fits. -/
theorem fits_neg_iff {q : ℚ} : Fits (-q) ↔ Fits q :=
  ⟨fun h => neg_neg q ▸ fits_neg h, fits_neg⟩

theorem fits_signFactor_mul_iff {q : ℚ} (negative : Bool) :
    Fits (signFactor negative * q) ↔ Fits q := by
  cases negative
  · rw [signFactor_false, one_mul]
  · rw [signFactor_true, neg_one_mul, fits_neg_iff]

/-- A number fits if its size does. -/
theorem fits_abs_iff {q : ℚ} : Fits |q| ↔ Fits q := by
  rcases abs_choice q with h | h <;> rw [h]
  exact fits_neg_iff

/-- What every result of an operation satisfies. A carry may make its coefficient a power of ten
with one digit too many. -/
structure IsResult (d : Decimal) : Prop where
  coefficient_le : d.coefficient ≤ tenTo precision
  exponent_ge : minExponent ≤ d.exponent
  leading_le : d.leading ≤ maxExponent

/-- Every result fits. -/
theorem IsResult.fits {d : Decimal} (h : d.IsResult) : Fits d.toRat := by
  obtain ⟨digits, low, high⟩ := h
  have limit : |d.toRat| < 10 ^ (maxExponent + 1) :=
    lt_of_lt_of_le (abs_toRat_lt d) (ten_zpow_le_iff.2 (by omega))
  rw [← fits_abs_iff]
  rcases Nat.lt_or_eq_of_le digits with digits | carry
  · refine ⟨d.coefficient, d.exponent, ?_, ?_, low, by rwa [abs_abs]⟩
    · rw [abs_toRat, Int.cast_natCast]
    · rw [Nat.abs_cast]
      exact_mod_cast digits
  -- after a carry one zero can go into the exponent
  · refine ⟨tenTo 27, d.exponent + 1, ?_, by decide, by omega, by rwa [abs_abs]⟩
    rw [abs_toRat, carry, precision, tenTo_succ, ten_zpow_add, zpow_one, Int.cast_natCast,
      Nat.cast_mul, Nat.cast_ofNat]
    ring

/-- A whole number with few digits fits. -/
theorem fits_intCast {n : ℤ} (h : |n| < tenTo precision) : Fits n := by
  refine ⟨n, 0, by simp, h, by decide, ?_⟩
  have below : |(n : ℚ)| < 10 ^ (precision : ℤ) := by
    rw [← cast_tenTo]
    exact_mod_cast h
  exact lt_of_lt_of_le below (ten_zpow_le_iff.2 (by decide))

/-- The last place of a number that fits, given the place of its leading digit: the number is a
multiple of a unit there. -/
theorem exists_multiple_of_fits {q : ℚ} (fits : Fits q) {leading : ℤ} (low : 10 ^ leading ≤ |q|)
    (place : ℤ) (h : place ≤ max (leading - precision + 1) minExponent) :
    ∃ k : ℤ, q = k * 10 ^ place := by
  obtain ⟨c, e, rfl, digits, least, -⟩ := fits
  have le : place ≤ e := by
    have digits' : |(c : ℚ)| < 10 ^ (precision : ℤ) := by
      rw [← cast_tenTo]
      exact_mod_cast digits
    have : (10 : ℚ) ^ leading < 10 ^ (precision + e) := by
      rw [ten_zpow_add]
      rw [abs_mul, abs_of_pos (ten_zpow_pos e)] at low
      exact lt_of_le_of_lt low (mul_lt_mul_of_pos_right digits' (ten_zpow_pos e))
    rw [ten_zpow_lt_iff] at this
    omega
  refine ⟨c * tenTo (e - place).toNat, ?_⟩
  rw [Int.cast_mul, Int.cast_natCast, cast_tenTo_toNat (by omega), mul_assoc, ← ten_zpow_add]
  congr 2
  omega

/-- What fits is not too large. -/
theorem abs_lt_of_fits {q : ℚ} (fits : Fits q) : |q| < 10 ^ (maxExponent + 1) := by
  obtain ⟨-, -, -, -, -, high⟩ := fits
  exact high

/-- What fits is not too close to zero. -/
theorem le_abs_of_fits {q : ℚ} (fits : Fits q) (h : q ≠ 0) : 10 ^ minExponent ≤ |q| := by
  obtain ⟨c, e, rfl, -, low, -⟩ := fits
  have nonzero : c ≠ 0 := by
    rintro rfl
    exact h (by simp)
  have one_le : (1 : ℚ) ≤ |(c : ℚ)| := by exact_mod_cast Int.one_le_abs nonzero
  rw [abs_mul, abs_of_pos (ten_zpow_pos e)]
  exact (ten_zpow_le_iff.2 low).trans (le_mul_of_one_le_left (ten_zpow_pos e).le one_le)

/-! ## The leading digit of a quotient -/

/-- How a quotient compares with a multiple of a power of ten, in whole numbers. -/
theorem div_lt_mul_ten_zpow_iff (num : Nat) {den : Nat} (positive : den ≠ 0) (k : Nat) (e : ℤ) :
    (num : ℚ) / den < k * 10 ^ e ↔ num * tenTo (-e).toNat < k * (den * tenTo e.toNat) := by
  have hden : (0 : ℚ) < den := by exact_mod_cast Nat.pos_of_ne_zero positive
  have hten : (0 : ℚ) < (tenTo (-e).toNat : Nat) := by exact_mod_cast tenTo_pos _
  rw [ten_zpow_eq_div, mul_div_assoc', div_lt_div_iff₀ hden hten, ← Nat.cast_mul, ← Nat.cast_mul,
    ← Nat.cast_mul, Nat.cast_lt, Nat.mul_assoc k, Nat.mul_comm den]

/-- The leading digit of a quotient is where the logarithm says. -/
theorem leadingExponent_spec {num den : Nat} (hnum : num ≠ 0) (hden : den ≠ 0) :
    (10 : ℚ) ^ leadingExponent num den ≤ num / den ∧
      (num : ℚ) / den < 10 ^ (leadingExponent num den + 1) := by
  have digits : ∀ n : Nat, n ≠ 0 → (10 : ℚ) ^ ((digitCount n : ℤ) - 1) ≤ n ∧
      (n : ℚ) < 10 ^ (digitCount n : ℤ) := by
    intro n hn
    have low := ten_zpow_leading_le (d := ofNat false n) hn
    have high := abs_toRat_lt (ofNat false n)
    have size : |(ofNat false n).toRat| = n := by
      rw [toRat_ofNat, signFactor_false, one_mul, Nat.abs_cast]
    have place : (ofNat false n).leading = digitCount n - 1 := by
      show (0 : ℤ) + digitCount n - 1 = _
      omega
    rw [size, place] at low high
    rw [sub_add_cancel] at high
    exact ⟨low, high⟩
  obtain ⟨num_ge, num_lt⟩ := digits num hnum
  obtain ⟨den_ge, den_lt⟩ := digits den hden
  have hpos : (0 : ℚ) < den := by exact_mod_cast Nat.pos_of_ne_zero hden
  -- the numbers of digits leave two places for the leading digit; a comparison decides
  have above : (10 : ℚ) ^ ((digitCount num : ℤ) - digitCount den - 1) ≤ num / den := by
    rw [le_div_iff₀ hpos]
    calc (10 : ℚ) ^ ((digitCount num : ℤ) - digitCount den - 1) * den
        ≤ 10 ^ ((digitCount num : ℤ) - digitCount den - 1) * 10 ^ (digitCount den : ℤ) :=
          mul_le_mul_of_nonneg_left den_lt.le (ten_zpow_pos _).le
      _ = 10 ^ ((digitCount num : ℤ) - 1) := by
          rw [← ten_zpow_add]
          congr 1
          omega
      _ ≤ num := num_ge
  have below : (num : ℚ) / den < 10 ^ ((digitCount num : ℤ) - digitCount den + 1) := by
    rw [div_lt_iff₀ hpos]
    calc (num : ℚ) < 10 ^ (digitCount num : ℤ) := num_lt
      _ = 10 ^ ((digitCount num : ℤ) - digitCount den + 1) * 10 ^ ((digitCount den : ℤ) - 1) := by
          rw [← ten_zpow_add]
          congr 1
          omega
      _ ≤ 10 ^ ((digitCount num : ℤ) - digitCount den + 1) * den :=
          mul_le_mul_of_nonneg_left den_ge (ten_zpow_pos _).le
  have test := div_lt_mul_ten_zpow_iff num hden 1 ((digitCount num : ℤ) - digitCount den)
  rw [Nat.cast_one, one_mul, Nat.one_mul] at test
  rw [leadingExponent]
  split
  · next h => exact ⟨above, by rw [sub_add_cancel]; exact test.2 h⟩
  · next h => exact ⟨not_lt.1 (mt test.1 h), below⟩

/-! ## Rounding to a place -/

/-- A quotient below a whole number is not rounded above it. -/
theorem roundDiv_le {num den bound : Nat} (positive : den ≠ 0) (h : num < bound * den) :
    roundDiv num den ≤ bound := by
  have : num / den < bound := (Nat.div_lt_iff_lt_mul (Nat.pos_of_ne_zero positive)).2 h
  rw [roundDiv]
  split
  · omega
  · split <;> omega

/-- A quotient without a remainder is rounded to itself. -/
theorem roundDiv_mul {k den : Nat} (positive : den ≠ 0) : roundDiv (k * den) den = k := by
  have : 0 < den := Nat.pos_of_ne_zero positive
  rw [roundDiv, Nat.mul_mod_left, Nat.mul_div_cancel _ this, if_pos (by omega)]

/-- A multiple of a unit of the last place is not changed by rounding to that place. -/
theorem toRat_atPlace (negative : Bool) {num den k : Nat} {last : ℤ} (positive : den ≠ 0)
    (h : (num : ℚ) / den = k * 10 ^ last) :
    (atPlace negative num den last).toRat = signFactor negative * (num / den) := by
  have hten : tenTo (-last).toNat ≠ 0 := (tenTo_pos _).ne'
  have whole : num * tenTo (-last).toNat = k * (den * tenTo last.toNat) := by
    rw [ten_zpow_eq_div, mul_div_assoc', div_eq_div_iff (by exact_mod_cast positive)
      (by exact_mod_cast hten)] at h
    have h' : num * tenTo (-last).toNat = k * tenTo last.toNat * den := by exact_mod_cast h
    rw [h', Nat.mul_assoc, Nat.mul_comm den]
  rw [atPlace, toRat_mk, whole, roundDiv_mul, h]
  exact Nat.mul_ne_zero positive (tenTo_pos _).ne'

/-! ## Rounding to a result -/

/-- At the precision results reach down to the least exponent. -/
theorem leastExponent_precision : leastExponent precision = minExponent := rfl

/-- With more digits results reach further down. -/
theorem leastExponent_le {digits : Nat} (enough : precision ≤ digits) :
    leastExponent digits ≤ minExponent := by
  rw [← leastExponent_precision, leastExponent, leastExponent]
  omega

/-- Rounding to the digits of a result, or to more, finds every number that fits, and changes none
of them. -/
theorem nearestWith_of_fits {digits num den : Nat} {exponent : ℤ} (enough : precision ≤ digits)
    (negative : Bool) (positive : den ≠ 0) (fits : Fits (num / den * 10 ^ exponent)) :
    ∃ d, nearestWith digits negative num den exponent = .ok d ∧
      d.toRat = signFactor negative * (num / den * 10 ^ exponent) := by
  rcases Nat.eq_zero_or_pos num with rfl | hnum
  · exact ⟨_, if_pos rfl, by simp [toRat_mk]⟩
  have hnum : num ≠ 0 := hnum.ne'
  obtain ⟨low, high⟩ := leadingExponent_spec hnum positive
  generalize hsize : (num : ℚ) / den = size at *
  generalize hleading : leadingExponent num den = leading at *
  have size_pos : 0 < size := lt_of_lt_of_le (ten_zpow_pos _) low
  have value_pos : 0 < size * 10 ^ exponent := mul_pos size_pos (ten_zpow_pos _)
  have low' : 10 ^ (leading + exponent) ≤ |size * 10 ^ exponent| := by
    rw [abs_of_pos value_pos, ten_zpow_add]
    exact mul_le_mul_of_nonneg_right low (ten_zpow_pos _).le
  have high' : |size * 10 ^ exponent| < 10 ^ (leading + 1 + exponent) := by
    rw [abs_of_pos value_pos, ten_zpow_add]
    exact mul_lt_mul_of_pos_right high (ten_zpow_pos _)
  have bounded := ten_zpow_lt_iff.1 (lt_of_le_of_lt low' (abs_lt_of_fits fits))
  have visible := ten_zpow_lt_iff.1 (lt_of_le_of_lt (le_abs_of_fits fits value_pos.ne') high')
  have least_le : leastExponent digits ≤ minExponent := leastExponent_le enough
  -- the number is a multiple of a unit of the place to which it is rounded
  let last := max (leading - digits + 1) (leastExponent digits - exponent)
  obtain ⟨k, hk⟩ := exists_multiple_of_fits fits low' (last + exponent) (by omega)
  have multiple : size = k.natAbs * 10 ^ last := by
    rw [ten_zpow_add, ← mul_assoc] at hk
    have hk := mul_right_cancel₀ (ten_zpow_pos exponent).ne' hk
    have : 0 ≤ (k : ℚ) := nonneg_of_mul_nonneg_left (hk ▸ size_pos.le) (ten_zpow_pos last)
    rw [Nat.cast_natAbs, Int.cast_abs, abs_of_nonneg this, hk]
  have exact_place := toRat_atPlace negative positive (hsize.trans multiple)
  rw [hsize] at exact_place
  generalize hd : atPlace negative num den last = d at *
  have exact_result : (⟨d.negative, d.coefficient, d.exponent + exponent⟩ : Decimal).toRat =
      signFactor negative * (size * 10 ^ exponent) := by
    rw [toRat_shifted, exact_place, mul_assoc]
  refine ⟨_, ?_, exact_result⟩
  have nonzero : d.coefficient ≠ 0 := by
    intro zero
    rw [(toRat_eq_zero_iff d).2 zero] at exact_place
    exact mul_ne_zero (signFactor_ne_zero negative) size_pos.ne' exact_place.symm
  have leads := (leading_lt_iff (d := ⟨d.negative, d.coefficient, d.exponent + exponent⟩) nonzero
    (maxExponent + 1)).2 (by
      rw [exact_result, abs_mul, abs_signFactor, one_mul]
      exact abs_lt_of_fits fits)
  rw [nearestWith, if_neg hnum, hleading]
  show (if maxExponent < leading + exponent then _ else
    if leading + exponent < leastExponent digits - 1 then _ else _) = _
  rw [if_neg (by omega), if_neg (by omega)]
  show (if maxExponent < Decimal.leading _ then _ else _) = _
  rw [hd, if_neg (by omega)]

/-- A quotient that fits is rounded to itself. -/
theorem nearest_of_fits {num den : Nat} {exponent : ℤ} (negative : Bool) (positive : den ≠ 0)
    (fits : Fits (num / den * 10 ^ exponent)) :
    ∃ d, nearest negative num den exponent = .ok d ∧
      d.toRat = signFactor negative * (num / den * 10 ^ exponent) :=
  nearestWith_of_fits le_rfl negative positive fits

/-- Rounding yields nothing but results. -/
theorem isResult_of_nearest {negative : Bool} {num den : Nat} {exponent : ℤ} {d : Decimal}
    (positive : den ≠ 0) (h : nearest negative num den exponent = .ok d) : d.IsResult := by
  rw [nearest, nearestWith, leastExponent_precision] at h
  split at h
  · cases h
    refine ⟨Nat.zero_le _, ?_, ?_⟩
    · exact le_max_left _ _
    · show max minExponent (min exponent maxExponent) + digitCount 0 - 1 ≤ maxExponent
      have : digitCount 0 = 1 := rfl
      have : minExponent ≤ maxExponent := by decide
      omega
  next hnum =>
  dsimp only at h
  split at h
  · cases h
  split at h
  · cases h
    refine ⟨Nat.zero_le _, Int.le_refl _, ?_⟩
    show minExponent + digitCount 0 - 1 ≤ maxExponent
    decide
  split at h
  · cases h
  next leads =>
  cases h
  -- the place was chosen so that the quotient there has no more than `precision` digits
  refine ⟨?_, ?_, not_lt.1 leads⟩
  · refine roundDiv_le (Nat.mul_ne_zero positive (tenTo_pos _).ne') ?_
    rw [← div_lt_mul_ten_zpow_iff _ positive, cast_tenTo, ← ten_zpow_add]
    exact lt_of_lt_of_le (leadingExponent_spec hnum positive).2 (ten_zpow_le_iff.2 (by omega))
  · show minExponent ≤ max _ _ + exponent
    omega

/-- An operation whose exact result fits has it as its result. -/
theorem nearest_eq_of_fits {negative : Bool} {num den : Nat} {exponent : ℤ} {q : ℚ}
    (positive : den ≠ 0) (h : signFactor negative * (num / den * 10 ^ exponent) = q)
    (fits : Fits q) : ∃ d, nearest negative num den exponent = .ok d ∧ d.toRat = q := by
  subst h
  exact nearest_of_fits negative positive ((fits_signFactor_mul_iff negative).1 fits)

end TexAlgebra.Decimal
