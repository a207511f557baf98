import TexAlgebra.Proofs.Numeral.Canonical
/-!
# Legible numerals

A numeral is legible if it can be written out and nothing is rounded on the way. The text that is
written consists of digits, with a minus in front if the number is negative and with a point if
digits behind it were asked for, and it spells the same number (`Numeral.IsLegible.exists_shows`,
`Decimal.exists_split`). Numerals with few digits are legible, and so is everything that is computed
from numbers.
-/

namespace TexAlgebra

namespace Decimal

/-! ## Writing out -/

/-- The digits of a number are a run of digits without needless zeros in front, and another one
behind a point if the number has a fraction. -/
theorem exists_split (d : Decimal) : ∃ whole fraction,
    d.plainDigits = Numeral.splitChars whole fraction ∧ whole ≠ [] ∧
      (∀ c ∈ whole ++ fraction, isLatinDigit c = true) ∧ fraction.length = d.places ∧
        (whole.head? = some '0' → whole = ['0']) := by
  rw [plainDigits]
  split
  · next fractional =>
    have long := le_length_paddedDigits d.coefficient (d.places + 1)
    have digits : ∀ c ∈ paddedDigits d.coefficient (d.places + 1), isLatinDigit c = true :=
      fun c => isLatinDigit_of_mem_paddedDigits
    have zero := @length_paddedDigits_of_zero d.coefficient d.places
    generalize paddedDigits d.coefficient (d.places + 1) = cs at long digits zero
    have length : (cs.drop (cs.length - d.places)).length = d.places := by
      rw [List.length_drop]
      omega
    have point : cs.drop (cs.length - d.places) ≠ [] := by
      rw [← List.length_pos_iff, length, places]
      omega
    refine ⟨cs.take (cs.length - d.places), cs.drop (cs.length - d.places), ?_, ?_, ?_, length, ?_⟩
    · rw [Numeral.splitChars, if_neg point]
    · rw [← List.length_pos_iff, List.length_take]
      omega
    · rw [List.take_append_drop]
      exact digits
    · intro first
      rw [List.head?_take, if_neg (by omega)] at first
      -- a zero in front is there only to fill the place of the units
      have one : cs.length - d.places = 1 := by
        rw [zero first]
        omega
      obtain ⟨rest, rfl⟩ := List.head?_eq_some_iff.1 first
      rw [one]
      rfl
  next whole =>
  have none : 0 = d.places := by
    rw [places]
    omega
  split
  · exact ⟨['0'], [], rfl, List.cons_ne_nil _ _, List.all_eq_true.1 rfl, none, fun _ => rfl⟩
  · next nonzero =>
    refine ⟨d.coefficient.repr.toList ++ List.replicate d.exponent.toNat '0', [], ?_, ?_, ?_, none,
      ?_⟩
    · rw [Numeral.splitChars, if_pos rfl, List.append_nil]
    · simp
    · intro c hc
      rw [List.append_nil] at hc
      rcases List.mem_append.1 hc with digit | zero
      · exact isLatinDigit_of_mem_repr digit
      · rw [List.eq_of_mem_replicate zero]
        rfl
    · intro first
      rw [List.head?_append_of_ne_nil _ (by simp)] at first
      exact absurd first (head?_repr nonzero)

/-- The digits of a number spell its size. -/
theorem Shows.magnitude {text : String} {q : ℚ} {d : Decimal} (h : Shows text q d) :
    Shows d.magnitude.plain |q| d.magnitude :=
  ⟨rfl, by rw [toRat_magnitude, h.value], ⟨h.result.1, h.result.2, h.result.3⟩, h.digits⟩

/-- A number that is shown is written as its size, with a minus in front if it is negative. -/
theorem Shows.exists_digits {text : String} {q : ℚ} {d : Decimal} (h : Shows text q d) :
    ∃ whole fraction, d.magnitude.plain.toList = Numeral.splitChars whole fraction ∧ whole ≠ [] ∧
      (∀ c ∈ whole ++ fraction, isLatinDigit c = true) ∧
        text = if d.negative then "-" ++ d.magnitude.plain else d.magnitude.plain := by
  obtain ⟨whole, fraction, spelled, nonempty, digits, -⟩ := d.exists_split
  have size : d.magnitude.plain = String.ofList d.plainDigits := rfl
  refine ⟨whole, fraction, by rw [size, String.toList_ofList, spelled], nonempty, digits, ?_⟩
  rw [h.text_eq, size, plain]
  split
  · rw [← String.toList_inj, String.toList_append, String.toList_ofList]
    exact congrArg ('-' :: ·) String.toList_ofList.symm
  · rfl

/-- A number with few digits can be written with as many digits after the point as it has. -/
theorem exists_render {d : Decimal} (fits : Fits d.toRat) (low : minExponent ≤ d.exponent)
    (digits : d.exponent < 0 → d.coefficient < tenTo precision) :
    ∃ text, d.render d.places = .ok text := by
  have smallest : minExponent = -1000026 := rfl
  have low : minExponent ≤ -(d.places : ℤ) := by
    rw [places]
    omega
  refine ⟨_, (render_eq fits (isLeast_places_stripped d) low).trans (if_neg ?_)⟩
  rintro ⟨-, fewer, many⟩
  have fraction : d.exponent < 0 := by
    rw [places, places] at fewer
    omega
  have units : d.exponent = -(d.places : ℤ) := by
    rw [places]
    omega
  rw [abs_toRat_mul units, ← zpow_natCast, ← cast_tenTo] at many
  exact absurd (digits fraction) (not_lt.2 (by exact_mod_cast many))

end Decimal

namespace Numeral

open Decimal

/-! ## Legible numerals -/

/-- Whether a numeral can be written out without being rounded. -/
def IsLegible (text : String) : Prop :=
  ∃ q shown, rat? text = some q ∧ Fits q ∧ render text = .ok shown

/-- Whether a numeral is written out with a sign. -/
def isSigned (text : String) : Bool :=
  match render text with
  | .ok shown => shown.toList.head? = some '-'
  | .error _ => false

/-- Writing out a legible numeral shows the number that it spells. -/
theorem IsLegible.exists_shows {text : String} (h : IsLegible text) :
    ∃ q shown d, rat? text = some q ∧ render text = .ok shown ∧ Shows shown q d := by
  obtain ⟨q, shown, spells, fits, rendered⟩ := h
  obtain ⟨d, read, rfl⟩ := rat?_eq_some spells
  have written := rendered
  unfold render renderWith at written
  simp only [read] at written
  obtain ⟨d', shows⟩ := shows_render fits (ok_of_written written)
  exact ⟨_, shown, d', spells, rendered, shows⟩

/-- A numeral that asks for no more digits than it has is legible. -/
theorem isLegible_of_ofText? {text : String} {d : Decimal} (read : Decimal.ofText? text = some d)
    (fits : Fits d.toRat) (low : minExponent ≤ d.exponent)
    (digits : d.exponent < 0 → d.coefficient < tenTo precision)
    (places : fractionalDigits text = d.places) : IsLegible text := by
  obtain ⟨shown, rendered⟩ := exists_render fits low digits
  refine ⟨d.toRat, shown, by rw [rat?, read, Option.map_some], fits, ?_⟩
  unfold render renderWith
  simp only [read, places, written, rendered]
  rfl

/-- A number that is written out shows all its digits after the point. -/
theorem fractionalDigits_plain (d : Decimal) : fractionalDigits d.plain = d.places := by
  obtain ⟨whole, fraction, spelled, -, digits, length, -⟩ := d.exists_split
  have written : d.plain = String.ofList (signedChars d.negative [] ++ d.plainDigits) := by
    rw [Decimal.plain, signedChars]
    split <;> rfl
  have sign : ∀ c ∈ signedChars d.negative [], c ≠ '.' := by
    cases d.negative <;> simp [signedChars]
  rw [written, fractionalDigits_append sign, spelled,
    fractionalDigits_splitChars fun c hc => digits c (List.mem_append_left _ hc), length]

/-- What was written out shows all digits after the point of the number that it spells. -/
theorem fractionalDigits_of_shows {text : String} {q : ℚ} {d : Decimal} (h : Shows text q d) :
    fractionalDigits text = d.writtenOut.places := by
  rw [h.text_eq, fractionalDigits_plain, places_writtenOut]

/-- What was written out is legible. -/
theorem isLegible_of_shows {text : String} {q : ℚ} {d : Decimal} (h : Shows text q d) :
    IsLegible text := by
  refine isLegible_of_ofText? h.ofText? ?_ (le_min h.result.exponent_ge (by decide)) ?_
    (fractionalDigits_of_shows h)
  · rw [toRat_writtenOut]
    exact h.result.fits
  · intro fraction
    have below : d.exponent < 0 := by
      rw [writtenOut] at fraction
      simp only at fraction
      omega
    rw [writtenOut, Int.toNat_of_nonpos below.le, tenTo_zero, Nat.mul_one]
    exact h.digits

/-- A numeral with few digits is legible. -/
theorem IsShortSplit.isLegible {whole fraction : List Char} (h : IsShortSplit whole fraction) :
    IsLegible (String.ofList (splitChars whole fraction)) := by
  have result := isResult_of_few h.ofDigits_lt h.length_fraction_le
  refine isLegible_of_ofText? h.ofText?_eq result.fits result.exponent_ge
    (fun _ => h.ofDigits_lt) ?_
  rw [fractionalDigits_splitChars fun c hc => h.digits c (List.mem_append_left _ hc)]
  simp only [splitValue, places]
  omega

/-- So is one that ends with its point. -/
theorem IsShortSplit.isLegible_point {whole fraction : List Char}
    (h : IsShortSplit whole fraction) :
    IsLegible (String.ofList (whole ++ '.' :: fraction)) := by
  have result := isResult_of_few h.ofDigits_lt h.length_fraction_le
  refine isLegible_of_ofText? h.ofText?_point result.fits result.exponent_ge
    (fun _ => h.ofDigits_lt) ?_
  rw [fractionalDigits_append fun c hc =>
    ne_point_of_isLatinDigit (h.digits c (List.mem_append_left _ hc)), fractionalDigits_point]
  simp only [splitValue, places]
  omega

/-! ## Computed numerals -/

/-- What a sign makes of a number is legible. -/
theorem isLegible_signed {op : Operator} {text result : String} (h : signed op text = .ok result)
    (legible : IsLegible text) : IsLegible result := by
  obtain ⟨q, shown, spells, -⟩ := legible
  obtain ⟨d, read, -⟩ := rat?_eq_some spells
  have shows : ∀ {work : Work} {x : Except Signal Decimal} {digits : Nat},
      (∀ r, x = .ok r → r.IsResult) →
      (work.result x >>= fun r => written r digits) = .ok result → IsLegible result := by
    intro work x digits computes h
    obtain ⟨r, computed, h⟩ := ok_of_bind h
    obtain ⟨shown, shows⟩ :=
      shows_render (computes r (Work.ok_of_result computed)).fits (ok_of_written h)
    exact isLegible_of_shows shows
  unfold signed at h
  simp only [read] at h
  cases op with
  | plus => exact shows (fun r => isResult_rounded) h
  | minus => exact shows (fun r => isResult_rounded) h
  | _ => cases h

/-- What an operation makes of two numbers is legible. -/
theorem isLegible_combined {op : Operator} {lhs rhs result : String}
    (h : combined op lhs rhs = .ok (some result)) (left : IsLegible lhs) (right : IsLegible rhs) :
    IsLegible result := by
  obtain ⟨x, -, spells_l, -⟩ := left
  obtain ⟨y, -, spells_r, -⟩ := right
  obtain ⟨a, read_l, -⟩ := rat?_eq_some spells_l
  obtain ⟨b, read_r, -⟩ := rat?_eq_some spells_r
  rw [combined] at h
  cases operation : operation? op with
  | none =>
    rw [operation] at h
    cases h
  | some compute =>
    unfold combinedValue? at h
    simp only [operation, read_l, read_r] at h
    cases computed : compute a b with
    | error signal =>
      rw [computed] at h
      cases h
    | ok r =>
      rw [computed] at h
      obtain ⟨text, rendered, h⟩ := ok_of_bind h
      cases h
      obtain ⟨shown, shows⟩ :=
        shows_render (isResult_operation operation computed).fits (ok_of_written rendered)
      exact isLegible_of_shows shows

end Numeral

end TexAlgebra
