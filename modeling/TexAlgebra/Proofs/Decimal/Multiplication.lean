import TexAlgebra.Decimal.Power
import TexAlgebra.Proofs.Computation
import TexAlgebra.Proofs.Decimal.Arithmetic
import Mathlib.Algebra.Order.Ring.Pow
import Mathlib.Data.Nat.Prime.Basic
/-!
# Repeated multiplication

A whole power is exact whenever the exact power fits. The numbers on the way to it are lower powers
of a number without zeros at its end, so they fit as well (`fits_pow_of_le`), and each product is
rounded to digits enough for them. What is left of the exponent and what the products have come to
are always powers of the same number, so the order in which the binary digits of the exponent are
read makes no difference.
-/

namespace TexAlgebra.Decimal

/-! ## Numbers without zeros at the end -/

/-- A number that fits does so with its own coefficient if there is no zero at the end of that. -/
theorem coefficient_of_fits {c : Nat} {e : ℤ} (short : c % 10 ≠ 0) (fits : Fits (c * 10 ^ e)) :
    c < tenTo precision ∧ minExponent ≤ e := by
  obtain ⟨c', e', h, digits, low, -⟩ := fits
  have size : (c : ℚ) * 10 ^ e = c'.natAbs * 10 ^ e' := by
    have abs := congrArg abs h
    rwa [abs_mul, abs_mul, Nat.abs_cast, abs_of_pos (ten_zpow_pos e), abs_of_pos (ten_zpow_pos e'),
      ← Int.cast_abs, Int.abs_eq_natAbs, Int.cast_natCast] at abs
  rw [Int.abs_eq_natAbs, Nat.cast_lt] at digits
  -- a lower unit on the left would put a zero at the end of `c`, a higher one makes `c` smaller
  rcases lt_or_ge e e' with lower | higher
  · obtain ⟨k, rfl⟩ : ∃ k : Nat, e' = e + (k + 1 : Nat) := ⟨(e' - e - 1).toNat, by omega⟩
    rw [add_comm e, ten_zpow_add, ← mul_assoc, ← cast_tenTo] at size
    have whole : c = c'.natAbs * tenTo (k + 1) := by
      exact_mod_cast mul_right_cancel₀ (ten_zpow_pos e).ne' size
    exfalso
    apply short
    rw [whole, tenTo_succ, ← Nat.mul_assoc]
    exact Nat.mul_mod_left _ _
  · obtain ⟨k, rfl⟩ : ∃ k : Nat, e = e' + k := ⟨(e - e').toNat, by omega⟩
    rw [add_comm e', ten_zpow_add, ← mul_assoc, ← cast_tenTo] at size
    have whole : c * tenTo k = c'.natAbs := by
      exact_mod_cast mul_right_cancel₀ (ten_zpow_pos e').ne' size
    have := Nat.le_mul_of_pos_right c (tenTo_pos k)
    exact ⟨by omega, by omega⟩

/-- A power of a number that does not end with a zero does not end with one either. -/
theorem pow_mod_ten {c : Nat} (short : c % 10 ≠ 0) (n : Nat) : c ^ n % 10 ≠ 0 := by
  intro h
  have two : 2 ∣ c := Nat.prime_two.dvd_of_dvd_pow (n := n) (by omega)
  have five : 5 ∣ c := Nat.prime_five.dvd_of_dvd_pow (n := n) (by omega)
  omega

/-- The value of a positive decimal number. -/
theorem toRat_of_positive {x : Decimal} (positive : x.negative = false) :
    x.toRat = x.coefficient * 10 ^ x.exponent := by
  rw [toRat, positive, signFactor_false, one_mul]

/-- The powers on the way to one that fits. -/
theorem fits_pow_of_le {x : Decimal} {k n : Nat} (positive : x.negative = false)
    (short : x.coefficient % 10 ≠ 0) (le : k ≤ n) (fits : Fits (x.toRat ^ n)) :
    Fits (x.toRat ^ k) := by
  have value : ∀ m : Nat, x.toRat ^ m = (x.coefficient ^ m : Nat) * 10 ^ (x.exponent * m) := by
    intro m
    rw [toRat_of_positive positive, mul_pow, Nat.cast_pow, ← zpow_natCast (_ ^ x.exponent),
      ← zpow_mul]
  have digits := coefficient_of_fits (pow_mod_ten short n) (value n ▸ fits)
  refine ⟨(x.coefficient ^ k : Nat), x.exponent * k, ?_, ?_, ?_, ?_⟩
  · rw [value k, Int.cast_natCast]
  · rw [Nat.abs_cast, Nat.cast_lt]
    exact (Nat.pow_le_pow_right (by omega) le).trans_lt digits.1
  · -- the last place of a power lies between the units and that of the higher power
    have least : minExponent ≤ 0 := by decide
    have : (k : ℤ) ≤ n := by exact_mod_cast le
    rcases le_total 0 x.exponent with up | down
    · exact least.trans (mul_nonneg up (Nat.cast_nonneg k))
    · exact digits.2.trans (mul_le_mul_of_nonpos_left this down)
  · have nonneg : 0 ≤ x.toRat := by
      rw [toRat_of_positive positive]
      positivity
    have limit : (1 : ℚ) < 10 ^ (maxExponent + 1) := by
      rw [← zpow_zero (10 : ℚ)]
      exact ten_zpow_lt_iff.2 (by decide)
    rw [abs_of_nonneg (pow_nonneg nonneg k)]
    rcases le_total x.toRat 1 with small | large
    · exact (pow_le_one₀ nonneg small).trans_lt limit
    · have := abs_lt_of_fits fits
      rw [abs_of_nonneg (pow_nonneg nonneg n)] at this
      exact (pow_le_pow_right₀ large le).trans_lt this

/-- If a power of the inverse of a number fits, the inverse is a decimal number itself. -/
theorem exists_inverse {x : Decimal} {n : Nat} (positive : x.negative = false)
    (nonzero : x.coefficient ≠ 0) (several : n ≠ 0) (fits : Fits (x.toRat⁻¹ ^ n)) :
    ∃ y : Decimal, y.negative = false ∧ y.coefficient % 10 ≠ 0 ∧ y.toRat = x.toRat⁻¹ := by
  obtain ⟨c, e, h, -⟩ := fits
  have base : x.toRat ≠ 0 := mt (toRat_eq_zero_iff x).1 nonzero
  -- the coefficient divides a power of ten, since its power times `c` is one
  obtain ⟨j, d, product⟩ : ∃ j, x.coefficient ∣ tenTo j := by
    have one : (x.coefficient : ℚ) ^ n * c * 10 ^ (x.exponent * n + e) = 1 :=
      calc (x.coefficient : ℚ) ^ n * c * 10 ^ (x.exponent * n + e)
          = x.toRat ^ n * (c * 10 ^ e) := by
            rw [toRat_of_positive positive, mul_pow, ten_zpow_add, zpow_mul, zpow_natCast]
            ring
        _ = x.toRat ^ n * x.toRat⁻¹ ^ n := by rw [h]
        _ = 1 := by rw [← mul_pow, mul_inv_cancel₀ base, one_pow]
    have down : ((tenTo (-(x.exponent * n + e)).toNat : Nat) : ℚ) ≠ 0 := by
      exact_mod_cast (tenTo_pos _).ne'
    rw [ten_zpow_eq_div, mul_div_assoc', div_eq_one_iff_eq down] at one
    have whole : ((x.coefficient ^ n : Nat) : ℤ) * (c * (tenTo (x.exponent * n + e).toNat : Nat)) =
        (tenTo (-(x.exponent * n + e)).toNat : Nat) := by
      rw [← mul_assoc]
      exact_mod_cast one
    have power : (x.coefficient : ℤ) ∣ (x.coefficient ^ n : Nat) :=
      Int.natCast_dvd_natCast.2 (dvd_pow_self _ several)
    exact ⟨_, Int.natCast_dvd_natCast.1 (power.trans (Dvd.intro _ whole))⟩
  have other : d ≠ 0 := by
    rintro rfl
    have := tenTo_pos j
    omega
  refine ⟨stripped ⟨false, d, -j - x.exponent⟩, negative_stripped _,
    coefficient_stripped_mod other, ?_⟩
  rw [toRat_stripped, toRat_mk, signFactor_false, one_mul]
  apply eq_inv_of_mul_eq_one_left
  calc (d : ℚ) * 10 ^ (-j - x.exponent) * x.toRat
      = (x.coefficient * d : Nat) * 10 ^ (-(j : ℤ)) := by
        rw [toRat_of_positive positive, sub_eq_add_neg, ten_zpow_add, zpow_neg _ x.exponent]
        have := ten_zpow_pos x.exponent
        push_cast
        field_simp
    _ = 1 := by rw [← product, cast_tenTo, ← ten_zpow_add, add_neg_cancel, zpow_zero]

/-! ## Repeated multiplication -/

section

variable {digits : Nat} (enough : precision ≤ digits)

include enough

/-- With enough digits a product that fits is exact. -/
theorem mulWith_of_fits {a b : Decimal} (fits : Fits (a.toRat * b.toRat)) :
    ∃ d, mulWith digits a b = .ok d ∧ d.toRat = a.toRat * b.toRat := by
  have value : signFactor (a.negative != b.negative) *
      ((a.coefficient * b.coefficient : Nat) / (1 : Nat) * 10 ^ (a.exponent + b.exponent)) =
        a.toRat * b.toRat := by
    rw [signFactor_bne, ten_zpow_add, Nat.cast_mul, Nat.cast_one, toRat, toRat]
    ring
  rw [← value, fits_signFactor_mul_iff] at fits
  rw [← value]
  exact nearestWith_of_fits enough _ Nat.one_ne_zero fits

/-- Repeated multiplication is exact if all powers on the way fit. The induction is on the bits of
the exponent that are left. -/
theorem powerFromLeft_of_fits {x : Decimal} {bits n : Nat}
    (fits : ∀ k ≤ n, Fits (x.toRat ^ k)) (low : 2 ^ bits ≤ n) (high : n < 2 ^ (bits + 1)) :
    ∃ d, powerFromLeft digits x bits n = .ok d ∧ d.toRat = x.toRat ^ n := by
  induction bits generalizing n with
  | zero =>
    have : n = 1 := by omega
    exact ⟨x, rfl, by rw [this, pow_one]⟩
  | succ bits ih =>
    rw [pow_succ] at low high
    obtain ⟨half, found, value⟩ :=
      ih (n := n / 2) (fun k le => fits k (by omega)) (by omega) (by omega)
    obtain ⟨square, found', value'⟩ := mulWith_of_fits enough (a := half) (b := half) (by
      rw [value, ← pow_add]
      exact fits _ (by omega))
    rw [value, ← pow_add] at value'
    rw [powerFromLeft, found]
    show ∃ d, (mulWith digits half half >>= _) = _ ∧ _
    rw [found']
    show ∃ d, (if n % 2 = 1 then mulWith digits square x else _) = _ ∧ _
    -- the exponent is twice its half, or one more than that
    split
    · next odd =>
      have power : x.toRat ^ n = square.toRat * x.toRat := by
        rw [value', ← pow_succ]
        congr 1
        omega
      rw [power]
      exact mulWith_of_fits enough (power ▸ fits n le_rfl)
    · next even =>
      refine ⟨square, rfl, ?_⟩
      rw [value']
      congr 1
      omega

/-- The invariant of the digits from the right: what they have come to is a power of the same
number `q`, with the exponents `i` and `j`. -/
theorem powerFromRight_of_fits {q : ℚ} {x product : Decimal} {bits n i j : Nat}
    (fits : ∀ k ≤ j + i * n, Fits (q ^ k)) (power : x.toRat = q ^ i) (done : product.toRat = q ^ j)
    (low : 2 ^ bits ≤ n) (high : n < 2 ^ (bits + 1)) :
    ∃ d, powerFromRight digits bits n x product = .ok d ∧ d.toRat = q ^ (j + i * n) := by
  induction bits generalizing n i j x product with
  | zero =>
    have : n = 1 := by omega
    rw [this, Nat.mul_one] at fits ⊢
    have value : product.toRat * x.toRat = q ^ (j + i) := by rw [done, power, pow_add]
    rw [← value]
    exact mulWith_of_fits enough (value ▸ fits _ le_rfl)
  | succ bits ih =>
    rw [pow_succ] at low high
    have halved : n = 2 * (n / 2) + n % 2 := by omega
    have several : i * 2 ≤ i * n := Nat.mul_le_mul_left i (by omega)
    obtain ⟨square, found, value⟩ := mulWith_of_fits enough (a := x) (b := x) (by
      rw [power, ← pow_add]
      exact fits _ (by omega))
    rw [power, ← pow_add] at value
    -- with the last digit taken care of, the induction hypothesis is about the square
    have rest : ∀ product' j', product'.toRat = q ^ j' → j' + (i + i) * (n / 2) = j + i * n →
        ∃ d, (mulWith digits x x >>= fun square =>
          powerFromRight digits bits (n / 2) square product') = .ok d ∧
            d.toRat = q ^ (j + i * n) := by
      intro product' j' done' same
      rw [found, ← same]
      exact ih (fun k le => fits k (same ▸ le)) value done' (by omega) (by omega)
    have doubled : (i + i) * (n / 2) = i * (2 * (n / 2)) := by ring
    rw [powerFromRight]
    split
    · next odd =>
      have total : j + i + (i + i) * (n / 2) = j + i * n := by
        conv_rhs => rw [halved, odd, Nat.mul_add]
        omega
      obtain ⟨product', found', value'⟩ := mulWith_of_fits enough (a := product) (b := x) (by
        rw [done, power, ← pow_add]
        exact fits _ (by omega))
      rw [found']
      exact rest product' (j + i) (by rw [value', done, power, pow_add]) total
    · next even =>
      have total : j + (i + i) * (n / 2) = j + i * n := by
        conv_rhs => rw [halved, show n % 2 = 0 by omega, Nat.add_zero]
        omega
      exact rest product j done total

/-- A power is exact, and so are all numbers on the way to it, if these fit. -/
theorem repeatedly_of_fits {x : Decimal} {n : Nat} (several : n ≠ 0)
    (fits : ∀ k ≤ n, Fits (x.toRat ^ k)) :
    ∃ d, x.repeatedly digits n = .ok d ∧ d.toRat = x.toRat ^ n := by
  have low : 2 ^ Nat.log2 n ≤ n := Nat.log2_self_le several
  have high : n < 2 ^ (Nat.log2 n + 1) := Nat.lt_log2_self
  rw [repeatedly]
  split
  · exact powerFromLeft_of_fits enough fits low high
  · have same : 0 + 1 * n = n := by omega
    have start : one.toRat = x.toRat ^ 0 := by rw [toRat_one, pow_zero]
    have power := powerFromRight_of_fits (i := 1) enough (by rwa [same]) (pow_one _).symm start
      low high
    rwa [same] at power

end

/-! ## Whole powers -/

/-- The exponent of a whole power: `n`, or `-n` for an inverse. -/
def signedExponent (inverse : Bool) (n : Nat) : ℤ := if inverse then -n else n

@[simp] theorem signedExponent_false (n : Nat) : signedExponent false n = n := rfl

@[simp] theorem signedExponent_true (n : Nat) : signedExponent true n = -n := rfl

/-- As a rational an exponent is its sign times its size. -/
theorem cast_signedExponent (inverse : Bool) (n : Nat) :
    (signedExponent inverse n : ℚ) = signFactor inverse * n := by
  cases inverse <;> simp

/-- The sign of an exponent does not make it even or odd. -/
theorem odd_signedExponent (inverse : Bool) (n : Nat) : Odd (signedExponent inverse n) ↔ Odd n := by
  cases inverse <;> simp

/-- A power of minus one is negative if the exponent is odd. -/
theorem signFactor_zpow (negative : Bool) (n : ℤ) :
    signFactor negative ^ n = signFactor (negative && decide (Odd n)) := by
  cases negative with
  | false => simp
  | true =>
    rcases Int.even_or_odd n with even | odd
    · simp [even.neg_one_zpow, Int.not_odd_iff_even.2 even]
    · simp [odd.neg_one_zpow, odd]

/-- The factor of a power that fits is exact, and so are all of its powers up to that one. -/
theorem factor_of_fits {inverse : Bool} {x : Decimal} {digits n : Nat}
    (enough : precision ≤ digits) (positive : x.negative = false)
    (short : x.coefficient % 10 ≠ 0) (several : n ≠ 0)
    (fits : Fits (x.toRat ^ signedExponent inverse n)) :
    ∃ y, x.factor digits inverse = .ok y ∧ y.toRat ^ n = x.toRat ^ signedExponent inverse n ∧
      ∀ k ≤ n, Fits (y.toRat ^ k) := by
  cases inverse with
  | false =>
    rw [signedExponent_false, zpow_natCast] at fits ⊢
    exact ⟨x, rfl, rfl, fun k le => fits_pow_of_le positive short le fits⟩
  | true =>
    rw [signedExponent_true, zpow_neg, zpow_natCast, ← inv_pow] at fits ⊢
    obtain ⟨y, positive', short', value⟩ := exists_inverse positive (by omega) several fits
    rw [← value] at fits ⊢
    have powers := fun k le => fits_pow_of_le (k := k) positive' short' le fits
    have quotient : ((1 : Nat) : ℚ) / x.coefficient * 10 ^ (-x.exponent) = y.toRat := by
      rw [value, toRat_of_positive positive, mul_inv, zpow_neg, Nat.cast_one, one_div]
    have once : Fits (((1 : Nat) : ℚ) / x.coefficient * 10 ^ (-x.exponent)) := by
      rw [quotient, ← pow_one y.toRat]
      exact powers 1 (by omega)
    obtain ⟨z, found, exactly⟩ := nearestWith_of_fits enough false (by omega) once
    rw [signFactor_false, one_mul, quotient] at exactly
    rw [← exactly] at powers ⊢
    exact ⟨z, found, rfl, powers⟩

/-- A whole power that fits is exact, for a base whose digits do not end with a zero: then the
powers on the way have no more digits than the last. -/
theorem toRat_wholePower {negative inverse : Bool} {x r : Decimal} {n : Nat}
    (positive : x.negative = false) (short : x.coefficient % 10 ≠ 0) (several : n ≠ 0)
    (h : wholePower negative inverse x n = .ok r)
    (fits : Fits (x.toRat ^ signedExponent inverse n)) :
    r.toRat = signFactor negative * x.toRat ^ signedExponent inverse n := by
  have enough : precision ≤ wholePowerDigits inverse n := by
    rw [wholePowerDigits]
    omega
  obtain ⟨y, found, power, powers⟩ := factor_of_fits enough positive short several fits
  obtain ⟨p, found', value⟩ := repeatedly_of_fits enough several powers
  have nonneg : 0 ≤ x.toRat ^ signedExponent inverse n := by
    have : 0 ≤ x.toRat := by
      rw [toRat_of_positive positive]
      positivity
    exact zpow_nonneg this _
  have size : (p.coefficient : ℚ) / (1 : Nat) * 10 ^ p.exponent =
      x.toRat ^ signedExponent inverse n := by
    rw [Nat.cast_one, div_one, ← abs_toRat, value, power, abs_of_nonneg nonneg]
  obtain ⟨d, rounded, exactly⟩ := nearest_of_fits negative Nat.one_ne_zero (size ▸ fits)
  obtain ⟨y', found₁, h⟩ := ok_of_bind h
  obtain ⟨p', found₂, h⟩ := ok_of_bind h
  cases found.symm.trans found₁
  cases found'.symm.trans found₂
  cases rounded.symm.trans h
  rw [exactly, size]

end TexAlgebra.Decimal
