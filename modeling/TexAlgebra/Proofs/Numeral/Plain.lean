import TexAlgebra.Proofs.Numeral.Legible
/-!
# Plain numerals

A numeral is plain if it consists of no more digits than a result has, with or without a point
between them, as all numerals of a formula do that are not too long. The operations that expansion
makes on plain numerals, a sign and the subtraction of one, always have a result, and the result is
plain again: `Numeral.exists_signed` and `Numeral.exists_lowered`.
-/

namespace TexAlgebra

namespace Decimal

variable {d : Decimal} {digits n : Nat}

/-- A number of few digits fits. -/
theorem fits_of_few {q : ℚ} (value : |q| = n * 10 ^ (-(digits : ℤ)))
    (few : n < tenTo precision) (low : minExponent ≤ -digits) :
    Fits q ∧ |q| < tenTo precision := by
  have small : |q| < tenTo precision := by
    calc |q| = n * 10 ^ (-(digits : ℤ)) := value
      _ ≤ n * 10 ^ (0 : ℤ) :=
        mul_le_mul_of_nonneg_left (ten_zpow_le_iff.2 (by omega)) (Nat.cast_nonneg n)
      _ = n := by rw [zpow_zero, mul_one]
      _ < tenTo precision := by exact_mod_cast few
  refine ⟨fits_abs_iff.1 ⟨n, -digits, by rw [Int.cast_natCast]; exact value, ?_, low, ?_⟩, small⟩
  · rw [Nat.abs_cast]
    exact_mod_cast few
  · rw [abs_abs]
    refine small.trans ?_
    rw [cast_tenTo, ten_zpow_lt_iff]
    decide

/-- A number with few digits, those after its point included, can be written with as many digits
after the point. -/
theorem exists_render_of_few (value : |d.toRat| = n * 10 ^ (-(digits : ℤ)))
    (few : n < tenTo precision) (low : minExponent ≤ -digits) :
    ∃ text, d.render digits = .ok text := by
  have fits := (fits_of_few value few low).1
  refine ⟨_, (render_eq fits (isLeast_places_stripped d) low).trans (if_neg ?_)⟩
  rintro ⟨-, -, many⟩
  rw [value, mul_assoc, ← zpow_natCast 10 digits, ← ten_zpow_add, neg_add_cancel, zpow_zero,
    mul_one, ← zpow_natCast, ← cast_tenTo] at many
  exact absurd few (not_lt.2 (by exact_mod_cast many))

end Decimal

namespace Numeral

open Decimal

variable {text : String} {q : ℚ}

/-! ## Plain numerals -/

/-- Whether a numeral spells a number with few digits and shows all its digits after the point. -/
def IsPlain (text : String) : Prop :=
  ∃ d, Decimal.ofText? text = some d ∧ d.coefficient < tenTo precision ∧
    minExponent ≤ d.exponent ∧ d.exponent ≤ 0 ∧ fractionalDigits text = d.places

/-- A plain numeral has a value. -/
theorem IsPlain.exists_rat? (h : IsPlain text) : ∃ q, rat? text = some q := by
  obtain ⟨d, read, -⟩ := h
  exact ⟨d.toRat, by rw [rat?, read, Option.map_some]⟩

/-- The number that a plain numeral spells, in units of its last digit. -/
theorem IsPlain.units (h : IsPlain text) (spells : rat? text = some q) :
    ∃ n : Nat, |q| = n * 10 ^ (-(fractionalDigits text : ℤ)) ∧ n < tenTo precision ∧
      minExponent ≤ -(fractionalDigits text : ℤ) := by
  obtain ⟨d, read, few, low, fraction, digits⟩ := h
  obtain ⟨d', read', rfl⟩ := rat?_eq_some spells
  cases read.symm.trans read'
  have places : -(d.places : ℤ) = d.exponent := by
    rw [Decimal.places]
    omega
  rw [digits, places]
  exact ⟨d.coefficient, abs_toRat d, few, low⟩

/-- What was written out is plain if it is of moderate size. -/
theorem isPlain_of_shows {shown : Decimal} (h : Shows text q shown)
    (small : |q| < tenTo precision) : IsPlain text := by
  obtain ⟨d, read, few, low⟩ := isShort_of_shows h small
  cases h.ofText?.symm.trans read
  rw [writtenOut_writtenOut] at few
  exact ⟨shown.writtenOut, read, few, low, min_le_right _ _, fractionalDigits_of_shows h⟩

/-- A numeral with few digits is plain. -/
theorem IsShortSplit.isPlain {whole fraction : List Char} (h : IsShortSplit whole fraction) :
    IsPlain (String.ofList (splitChars whole fraction)) := by
  have result := isResult_of_few h.ofDigits_lt h.length_fraction_le
  refine ⟨splitValue whole fraction, h.ofText?_eq, h.ofDigits_lt, result.exponent_ge, ?_, ?_⟩
  · simp only [splitValue]
    omega
  · rw [fractionalDigits_splitChars fun c hc => h.digits c (List.mem_append_left _ hc)]
    simp only [splitValue, places]
    omega

/-- One is plain. -/
theorem isPlain_one : IsPlain "1" :=
  @IsShortSplit.isPlain ['1'] [] ⟨by decide, List.all_eq_true.1 rfl, by decide⟩

/-! ## Operations -/

/-- A plain numeral under a sign has a numeral, which spells the number under the sign and is plain.
-/
theorem exists_signed {op : Operator} (sign : op.isSign = true) (h : IsPlain text)
    (spells : rat? text = some q) : ∃ result x, signed op text = .ok result ∧
      op.signOnRat? q = some x ∧ |x| = |q| ∧ rat? result = some x ∧ IsPlain result := by
  obtain ⟨n, value, few, low⟩ := h.units spells
  obtain ⟨fits, small⟩ := fits_of_few value few low
  obtain ⟨d, read, rfl⟩ := rat?_eq_some spells
  -- a number of so few digits can be written out
  have written : ∀ {work : Work} {x : Except Signal Decimal} {r : Decimal}, x = .ok r →
      |r.toRat| = |d.toRat| → ∃ result, (work.result x >>= fun r =>
        written r (fractionalDigits text)) = .ok result := by
    rintro work _ r rfl same
    obtain ⟨result, rendered⟩ := exists_render_of_few (same.trans value) few low
    refine ⟨result, ?_⟩
    show Numeral.written r _ = _
    rw [Numeral.written, rendered]
    rfl
  obtain ⟨result, x, computed, exactly, same⟩ : ∃ result x, signed op text = .ok result ∧
      op.signOnRat? d.toRat = some x ∧ |x| = |d.toRat| := by
    unfold signed
    simp only [read]
    cases op with
    | plus =>
      obtain ⟨r, rounded, same⟩ := pos_of_fits fits
      obtain ⟨result, rendered⟩ := written rounded (congrArg _ same)
      exact ⟨result, d.toRat, rendered, rfl, rfl⟩
    | minus =>
      obtain ⟨r, rounded, same⟩ := neg_of_fits (fits_neg fits)
      obtain ⟨result, rendered⟩ := written rounded (by rw [same, abs_neg])
      exact ⟨result, -d.toRat, rendered, rfl, abs_neg _⟩
    | _ => cases sign
  obtain ⟨shown, shows⟩ := shows_signed computed spells exactly
    (fits_abs_iff.1 (same.symm ▸ fits_abs_iff.2 fits))
  exact ⟨result, x, computed, exactly, same, shows.rat?,
    isPlain_of_shows shows (same.trans_lt small)⟩

/-- The whole number before that of a plain numeral, if this is positive, has a numeral, which
spells it and is plain. -/
theorem exists_lowered {n : ℤ} (h : IsPlain text) (spells : rat? text = some (n : ℚ))
    (positive : 0 < n) : ∃ result, combined .minus text "1" = .ok (some result) ∧
      rat? result = some ((n - 1 : ℤ) : ℚ) ∧ IsPlain result := by
  obtain ⟨m, value, few, low⟩ := h.units spells
  obtain ⟨d, read, value_d⟩ := rat?_eq_some spells
  have one : Decimal.ofText? "1" = some Decimal.one := rfl
  -- in units of the last digit the lower number is smaller, so it needs no more digits
  let k := (n - 1).toNat * tenTo (fractionalDigits text)
  have lower : ((n - 1 : ℤ) : ℚ) = k * 10 ^ (-(fractionalDigits text : ℤ)) := by
    rw [Nat.cast_mul, cast_tenTo, mul_assoc, ← ten_zpow_add, add_neg_cancel, zpow_zero, mul_one]
    exact_mod_cast (Int.toNat_of_nonneg (by omega : 0 ≤ n - 1)).symm
  have nonneg : (0 : ℚ) ≤ ((n - 1 : ℤ) : ℚ) := by exact_mod_cast (by omega : 0 ≤ n - 1)
  have fewer : k < tenTo precision := by
    refine lt_of_le_of_lt ?_ few
    have le : ((n - 1 : ℤ) : ℚ) ≤ |(n : ℚ)| := by
      rw [abs_of_pos (by exact_mod_cast positive)]
      exact_mod_cast (by omega : n - 1 ≤ n)
    rw [lower, value] at le
    exact_mod_cast le_of_mul_le_mul_right le (ten_zpow_pos _)
  have value' : |((n - 1 : ℤ) : ℚ)| = k * 10 ^ (-(fractionalDigits text : ℤ)) := by
    rw [abs_of_nonneg nonneg, lower]
  obtain ⟨fits, small⟩ := fits_of_few value' fewer low
  have difference : d.toRat - Decimal.one.toRat = ((n - 1 : ℤ) : ℚ) := by
    rw [value_d, toRat_one, Int.cast_sub, Int.cast_one]
  obtain ⟨r, computed, same⟩ := sub_of_fits (difference.symm ▸ fits)
  rw [difference] at same
  rw [← same] at value'
  obtain ⟨result, rendered⟩ := exists_render_of_few value' fewer low
  have combines : combined .minus text "1" = .ok (some result) := by
    unfold combined combinedValue?
    simp only [operation?, read, one, computed, Except.toOption]
    rw [show fractionalDigits "1" = 0 from rfl, Nat.max_zero, written, rendered]
    rfl
  have exactly : Operator.minus.onRat? n 1 = some ((n - 1 : ℤ) : ℚ) := by
    rw [Operator.onRat?, Int.cast_sub, Int.cast_one]
  have unit : rat? "1" = some 1 := by
    rw [rat?, one, Option.map_some, toRat_one]
  obtain ⟨shown, shows⟩ := shows_combined combines spells unit exactly fits
  exact ⟨result, combines, shows.rat?, isPlain_of_shows shows small⟩

end Numeral

end TexAlgebra
