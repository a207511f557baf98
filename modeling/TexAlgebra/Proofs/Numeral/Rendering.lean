import TexAlgebra.Proofs.Numeral.Legible
/-!
# Rendering

Writing out a number that needs no rounding is exact: `Decimal.render_exactly` says when it succeeds
and which text results. The text has the digits after the point that were asked for or, if these are
too few, as many as the number needs, and writing out what it spells gives the same text again.
-/

namespace TexAlgebra

open Decimal

variable {q : ℚ} {k digits : ℕ}

/-- Whether `text` is `q` written out with `places` digits after the point: without a power of ten
or needless zeros in front, and with a minus exactly below zero. Reading it gives `q` back. -/
structure Numeral.IsWrittenOut (text : String) (q : ℚ) (places : ℕ) : Prop where
  form : ∃ whole fraction,
    text = String.ofList (signedChars (decide (q < 0)) (splitChars whole fraction)) ∧
      whole ≠ [] ∧ (∀ c ∈ whole ++ fraction, isLatinDigit c = true) ∧
        (whole.head? = some '0' → whole = ['0']) ∧ fraction.length = places ∧
          |q| * 10 ^ places = ofDigits (whole ++ fraction)
  spells : rat? text = some q

namespace Decimal

/-- A number that fits does not need more digits after the point than the smallest result. -/
theorem low_of_isLeast {f : ℕ} (fits : Fits q) (least : IsLeast (exactPlaces q) f) :
    minExponent ≤ -(f : ℤ) := by
  obtain ⟨n, e, value, -, low, -⟩ := fits
  have smallest : minExponent = -1000026 := rfl
  have exactly : (-e).toNat ∈ exactPlaces q := by
    have whole : 0 ≤ e + (-e).toNat := by omega
    refine ⟨n * tenTo (e + (-e).toNat).toNat, ?_⟩
    rw [value, Int.cast_mul, Int.cast_natCast, cast_tenTo_toNat whole, ten_zpow_add, mul_assoc,
      zpow_natCast]
  have := least.2 exactly
  omega

/-- The digits of a number, without the point between them, spell its coefficient. -/
theorem ofDigits_split {d : Decimal} {whole fraction : List Char}
    (spelled : d.plainDigits = Numeral.splitChars whole fraction) (nonempty : whole ≠ [])
    (digits : ∀ c ∈ whole ++ fraction, isLatinDigit c = true) :
    ofDigits (whole ++ fraction) = d.writtenOut.coefficient := by
  have left := fun c hc => digits c (List.mem_append_left fraction hc)
  have right := fun c hc => digits c (List.mem_append_right whole hc)
  have read := ofChars?_plainDigits d
  rw [spelled, Numeral.splitChars] at read
  split at read
  · next none =>
    rw [List.append_nil, ofChars?_whole _ nonempty left] at read
    rw [none, List.append_nil, ← Option.some.inj read]
  · rw [ofChars?_point _ nonempty left right] at read
    rw [← Option.some.inj read]

/-- A number with a given number of places is written out with them. -/
theorem writtenOut_toPlaces (q : ℚ) (k : ℕ) : (toPlaces q k).writtenOut = toPlaces q k := by
  have negative : -(k : ℤ) ≤ 0 := by omega
  rw [writtenOut, toPlaces, Int.toNat_of_nonpos negative, tenTo_zero, Nat.mul_one,
    min_eq_left negative]

/-- A number that is written with some places has them in its text. -/
theorem fractionalDigits_toPlaces (q : ℚ) (k : ℕ) :
    Numeral.fractionalDigits (toPlaces q k).plain = k := by
  rw [Numeral.fractionalDigits_plain]
  simp [places, toPlaces]

variable (exactly : k ∈ exactPlaces q) (fits : Fits q) (low : minExponent ≤ -(k : ℤ))
include exactly fits low

/-- A number that is written with some places is read again. -/
theorem ofText?_toPlaces : Decimal.ofText? (toPlaces q k).plain = some (toPlaces q k) := by
  have limits := isWithinLimits_writtenOut (d := toPlaces q k)
    (by rwa [toRat_toPlaces exactly]) low
  rw [ofText?_plain limits, writtenOut_toPlaces]

/-- Writing out a number with a given number of places shows it with as many. -/
theorem isWrittenOut_toPlaces : Numeral.IsWrittenOut (toPlaces q k).plain q k := by
  obtain ⟨whole, fraction, spelled, nonempty, digits, length, noZero⟩ := (toPlaces q k).exists_split
  refine ⟨⟨whole, fraction, ?_, nonempty, digits, noZero, ?_, ?_⟩, ?_⟩
  · rw [← spelled]
    rfl
  · simpa [places, toPlaces] using length
  · have units := abs_toRat_mul (d := toPlaces q k) rfl
    rw [toRat_toPlaces exactly] at units
    rw [units, ofDigits_split spelled nonempty digits, writtenOut_toPlaces]
  · rw [Numeral.rat?, ofText?_toPlaces exactly fits low, Option.map_some, toRat_toPlaces exactly]

/-- A text that shows all digits of a number is written out as it is, unless it has zeros for which
a result has no room. -/
theorem render_toPlaces {f : ℕ} (least : IsLeast (exactPlaces q) f)
    (room : f < k → q ≠ 0 → |q| * 10 ^ k < 10 ^ precision) :
    Numeral.render (toPlaces q k).plain = .ok (toPlaces q k).plain := by
  have value := toRat_toPlaces exactly
  have written := @render_eq (toPlaces q k) f k (value.symm ▸ fits) (value.symm ▸ least) low
  rw [value, max_eq_left (least.2 exactly), if_neg fun all =>
    absurd (room all.2.1 all.1) (not_lt.2 all.2.2)] at written
  unfold Numeral.render Numeral.renderWith
  simp only [ofText?_toPlaces exactly fits low, fractionalDigits_toPlaces, Numeral.written,
    written]
  rfl

end Decimal

/-- A number that fits is written out exactly, with as many digits after the point as are asked for
or as it needs, and the text is stable. It cannot be written out if zeros are asked for behind so
many digits that a result has no room for them, and only then. -/
theorem Decimal.render_exactly {d : Decimal} (fits : Fits d.toRat) (few : digits ≤ 999999) :
    ∃ f, IsLeast (exactPlaces d.toRat) f ∧
      (d.render digits = .error .invalid ↔
        d.toRat ≠ 0 ∧ f < digits ∧ 10 ^ 28 ≤ |d.toRat| * 10 ^ digits) ∧
      (d.render digits ≠ .error .invalid → ∃ text, d.render digits = .ok text ∧
        Numeral.IsWrittenOut text d.toRat (max digits f) ∧ Numeral.render text = .ok text) := by
  have smallest : minExponent = -1000026 := rfl
  have least := isLeast_places_stripped d
  refine ⟨d.stripped.places, least, ?_⟩
  generalize d.stripped.places = f at least
  have needed := low_of_isLeast fits least
  have rendered := render_eq fits least (show minExponent ≤ -(digits : ℤ) by omega)
  rw [rendered]
  split
  · next many => exact ⟨⟨fun _ => many, fun _ => rfl⟩, fun other => absurd rfl other⟩
  next room =>
  refine ⟨⟨nofun, fun many => absurd many room⟩, fun _ => ?_⟩
  have exactly := mem_exactPlaces_of_le least.1 (le_max_right digits f)
  have low : minExponent ≤ -((max digits f : ℕ) : ℤ) := by omega
  refine ⟨_, rfl, isWrittenOut_toPlaces exactly fits low,
    render_toPlaces exactly fits low least fun more nonzero => ?_⟩
  have asked : max digits f = digits := by omega
  rw [asked] at more ⊢
  exact not_le.1 fun many => room ⟨nonzero, more, many⟩

/-- The number `-1234.5` with three digits after the point is `-1234.500`, which is read as the same
number and written out as it is. -/
theorem Decimal.render_exactly_padded :
    let d : Decimal := ⟨true, 12345, -1⟩
    Fits d.toRat ∧ d.render 3 = .ok "-1234.500" ∧
      Numeral.IsWrittenOut "-1234.500" d.toRat 3 ∧
        Numeral.render "-1234.500" = .ok "-1234.500" := by
  intro d
  have result : d.IsResult := ⟨by decide, by decide, by decide⟩
  have rendered : (⟨true, 12345, -1⟩ : Decimal).render 3 = .ok "-1234.500" := rfl
  obtain ⟨f, least, -, otherwise⟩ := @Decimal.render_exactly 3 d result.fits (by decide)
  obtain ⟨text, same, written, stable⟩ := otherwise (by rw [rendered]; nofun)
  cases rendered.symm.trans same
  have one : f ≤ 1 := least.2 (mem_exactPlaces_of_places_le (d := d) (by decide))
  rw [max_eq_left (by omega)] at written
  exact ⟨result.fits, rendered, written, stable⟩

end TexAlgebra
