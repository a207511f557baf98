import TexAlgebra.Proofs.Decimal.Power
import TexAlgebra.Proofs.Decimal.Text
import TexAlgebra.Proofs.Meaning
/-!
# Exact numerals

Where the exact result of an operation on numerals needs no rounding, the numeral that the operation
yields spells it.
-/

namespace TexAlgebra

open Decimal

namespace Numeral

/-! ## Operations on decimal numbers -/

/-- Whatever an operation gives is a result that fits the precision. -/
theorem isResult_operation {op : Operator} {compute : Decimal → Decimal → Except Signal Decimal}
    {a b r : Decimal} (operation : operation? op = some compute) (computed : compute a b = .ok r) :
    r.IsResult := by
  cases op with
  | plus =>
    cases operation
    exact isResult_add computed
  | minus =>
    cases operation
    exact isResult_add computed
  | times =>
    cases operation
    exact isResult_mul computed
  | juxtaposed =>
    cases operation
    exact isResult_mul computed
  | divide =>
    cases operation
    exact isResult_div computed
  | power =>
    cases operation
    exact isResult_pow computed
  | equals => cases operation

/-- What an operator computes is exact if the exact result fits. -/
theorem toRat_operation {op : Operator} {compute : Decimal → Decimal → Except Signal Decimal}
    {a b r : Decimal} {q : ℚ} (operation : operation? op = some compute)
    (computed : compute a b = .ok r) (exactly : op.onRat? a.toRat b.toRat = some q)
    (fits : Fits q) : r.toRat = q := by
  -- what is computed exactly is the only result
  have unique : ∀ {x : Except Signal Decimal}, (∃ d, x = .ok d ∧ d.toRat = q) → x = .ok r →
      r.toRat = q := by
    rintro x ⟨d, rfl, value⟩ h
    cases h
    exact value
  cases op with
  | plus =>
    cases operation
    cases exactly
    exact unique (add_of_fits fits) computed
  | minus =>
    cases operation
    cases exactly
    exact unique (sub_of_fits fits) computed
  | times =>
    cases operation
    cases exactly
    exact unique (mul_of_fits fits) computed
  | juxtaposed =>
    cases operation
    cases exactly
    exact unique (mul_of_fits fits) computed
  | divide =>
    cases operation
    rw [Operator.onRat?] at exactly
    split at exactly
    · cases exactly
    · next nonzero =>
      cases exactly
      exact unique (div_of_fits nonzero fits) computed
  | power =>
    cases operation
    obtain ⟨n, whole, -, rfl⟩ := ratPower?_eq_some exactly
    exact toRat_pow whole computed fits
  | equals => cases operation

/-! ## Operations on numerals -/

/-- Whether the numeral of `text` under the sign `op`, if there is one, needs no rounding. -/
def SignsExactly (op : Operator) (text : String) : Prop :=
  ∀ result x q, signed op text = .ok result → rat? text = some x → op.signOnRat? x = some q → Fits q

/-- Whether the numeral that the operation `op` makes of two numerals, if it makes one, needs no
rounding. -/
def CombinesExactly (op : Operator) (lhs rhs : String) : Prop :=
  ∀ result x y q, combined op lhs rhs = .ok (some result) → rat? lhs = some x →
    rat? rhs = some y → op.onRat? x y = some q → Fits q

/-- A numeral with a value is the text of a decimal number. -/
theorem rat?_eq_some {text : String} {x : ℚ} (h : rat? text = some x) :
    ∃ d, Decimal.ofText? text = some d ∧ d.toRat = x :=
  Option.map_eq_some_iff.1 h

/-- A number that is written out is rendered. -/
theorem ok_of_written {d : Decimal} {digits : Nat} {text : String}
    (h : written d digits = .ok text) : d.render digits = .ok text :=
  Work.ok_of_result h

/-- A numeral under a sign shows the exact number if this fits. -/
theorem shows_signed {op : Operator} {text result : String} {x q : ℚ}
    (h : signed op text = .ok result) (spells : rat? text = some x)
    (exactly : op.signOnRat? x = some q) (fits : Fits q) : ∃ shown, Shows result q shown := by
  obtain ⟨d, read, rfl⟩ := rat?_eq_some spells
  unfold signed at h
  simp only [read] at h
  cases op with
  | plus =>
    cases exactly
    obtain ⟨r, computed, h⟩ := ok_of_bind h
    obtain ⟨r', computed', value⟩ := pos_of_fits fits
    rw [Work.ok_of_result computed] at computed'
    cases computed'
    rw [← value] at fits ⊢
    exact shows_render fits (ok_of_written h)
  | minus =>
    cases exactly
    obtain ⟨r, computed, h⟩ := ok_of_bind h
    obtain ⟨r', computed', value⟩ := neg_of_fits fits
    rw [Work.ok_of_result computed] at computed'
    cases computed'
    rw [← value] at fits ⊢
    exact shows_render fits (ok_of_written h)
  | _ => cases exactly

/-- The numeral of an operation shows the exact number if this fits. -/
theorem shows_combined {op : Operator} {lhs rhs result : String} {x y q : ℚ}
    (h : combined op lhs rhs = .ok (some result)) (hl : rat? lhs = some x) (hr : rat? rhs = some y)
    (exactly : op.onRat? x y = some q) (fits : Fits q) : ∃ shown, Shows result q shown := by
  obtain ⟨a, read_l, rfl⟩ := rat?_eq_some hl
  obtain ⟨b, read_r, rfl⟩ := rat?_eq_some hr
  rw [combined] at h
  cases operation : operation? op with
  | none =>
    rw [operation] at h
    cases h
  | some compute =>
    unfold combinedValue? at h
    simp only [operation, read_l, read_r] at h
    cases computed : compute a b with
    | error signal =>
      rw [computed] at h
      cases h
    | ok r =>
      rw [computed] at h
      obtain ⟨text, rendered, h⟩ := ok_of_bind h
      cases h
      have value := toRat_operation operation computed exactly fits
      rw [← value] at fits ⊢
      exact shows_render fits (ok_of_written rendered)

end Numeral

/-- A text that shows a value has it. -/
theorem Decimal.Shows.rat? {text : String} {q : ℚ} {shown : Decimal} (h : Shows text q shown) :
    Numeral.rat? text = some q := by
  rw [Numeral.rat?, h.ofText?, Option.map_some, toRat_writtenOut, h.value]

/-! ## Short numerals -/

/-- Whether a numeral takes no more digits than a result has when it is written out. -/
def Numeral.IsShort (text : String) : Prop :=
  ∃ d, Decimal.ofText? text = some d ∧ d.writtenOut.coefficient < tenTo precision ∧
    minExponent ≤ d.exponent

namespace Numeral

/-- A short numeral is small enough, and has few enough digits, to be kept as it is. -/
theorem IsShort.bounds {text : String} (short : IsShort text) {x : ℚ} (h : rat? text = some x) :
    Fits x ∧ |x| < tenTo precision := by
  obtain ⟨d, read, digits, low⟩ := short
  obtain ⟨d', read', rfl⟩ := rat?_eq_some h
  cases read.symm.trans read'
  have written : d.writtenOut.exponent = min d.exponent 0 := rfl
  have small : |d.toRat| < tenTo precision := by
    rw [← toRat_writtenOut, abs_toRat]
    calc (d.writtenOut.coefficient : ℚ) * 10 ^ d.writtenOut.exponent
        ≤ d.writtenOut.coefficient * 10 ^ (0 : ℤ) :=
          mul_le_mul_of_nonneg_left (ten_zpow_le_iff.2 (by omega)) (Nat.cast_nonneg _)
      _ = d.writtenOut.coefficient := by rw [zpow_zero, mul_one]
      _ < tenTo precision := by exact_mod_cast digits
  refine ⟨?_, small⟩
  rw [← fits_abs_iff, ← toRat_writtenOut, abs_toRat]
  refine ⟨d.writtenOut.coefficient, d.writtenOut.exponent, by rw [Int.cast_natCast], ?_, ?_, ?_⟩
  · rw [Nat.abs_cast]
    exact_mod_cast digits
  · exact le_min low (by decide)
  · rw [← abs_toRat, toRat_writtenOut, abs_abs]
    refine small.trans ?_
    rw [cast_tenTo, ten_zpow_lt_iff]
    decide

/-- A number of moderate size is shown by a short numeral. -/
theorem isShort_of_shows {text : String} {q : ℚ} {shown : Decimal} (h : Shows text q shown)
    (small : |q| < tenTo precision) : IsShort text := by
  refine ⟨shown.writtenOut, h.ofText?, ?_, le_min h.result.exponent_ge (by decide)⟩
  rw [writtenOut_writtenOut]
  rcases le_total shown.exponent 0 with fraction | whole
  · rw [writtenOut, Int.toNat_of_nonpos fraction, tenTo_zero, Nat.mul_one]
    exact h.digits
  · have value := abs_toRat shown.writtenOut
    have units : shown.writtenOut.exponent = 0 := min_eq_right whole
    rw [toRat_writtenOut, h.value, units, zpow_zero, mul_one] at value
    rw [value] at small
    exact_mod_cast small

end Numeral

end TexAlgebra
