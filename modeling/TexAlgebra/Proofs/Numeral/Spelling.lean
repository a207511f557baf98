import TexAlgebra.Proofs.Decimal.Comparison
import TexAlgebra.Proofs.Matching
/-!
# The spelling of a value

Among all spellings of a value one is canonical: a finite number is written out in full, without
zeros that could be left out, and an infinity is called by its name. Reading it gives the value
again (`Numeral.value?_spelling`), so two numerals have the same value just if they become the same
text once each is spelled in this way (`Numeral.spelled_eq_iff`).
-/

namespace TexAlgebra

namespace Decimal

variable {a b d : Decimal}

/-- Numbers of one value have one canonical form. -/
theorem canonical_congr (same : a.toRat = b.toRat) : a.canonical = b.canonical :=
  eq_of_beq (sameValue_iff.2 same)

/-- The one form of a number that can be read is not too large or too small to be read either. -/
theorem isWithinLimits_canonical (h : d.isWithinLimits = true) :
    d.canonical.writtenOut.isWithinLimits = true := by
  by_cases zero : d.isZero = true
  · rw [canonical, if_pos zero]
    decide
  have same : d.toRat = d.canonical.writtenOut.toRat := by rw [toRat_writtenOut, toRat_canonical]
  have positive : d.coefficient ≠ 0 := by simpa [isZero] using zero
  have exponent : d.canonical.writtenOut.exponent = min d.stripped.exponent 0 := by
    rw [canonical, if_neg zero]
    rfl
  have below := exponent_le_stripped positive
  rw [isWithinLimits, Bool.and_eq_true, decide_eq_true_iff, decide_eq_true_iff, if_neg zero] at h
  rw [isWithinLimits, Bool.and_eq_true, decide_eq_true_iff, decide_eq_true_iff, ← isZero_congr same,
    if_neg zero, ← leading_eq_of_toRat_eq positive same, exponent]
  omega

end Decimal

namespace Numeral

/-- The canonical spelling of a value. -/
def Value.spelling : Value → String
  | finite d => d.plain
  | infinite negative => (Decimal.Special.infinity negative).plain

/-- The canonical spelling of what a numeral stands for. Other texts stay as they are. -/
def spelled (text : String) : String :=
  match value? text with
  | some v => v.spelling
  | none => text

variable {s t text : String} {v w : Value}

/-- The canonical spelling of a value that some numeral has is a spelling of it. -/
theorem value?_spelling (h : value? text = some v) : value? v.spelling = some v := by
  obtain ⟨d, read, rfl⟩ | ⟨negative, -, -, rfl⟩ := value?_cases h
  · have limits : d.isWithinLimits = true := by
      rw [Decimal.ofText?, Option.filter_eq_some_iff] at read
      exact read.2
    have again := Decimal.ofText?_plain (Decimal.isWithinLimits_canonical limits)
    rw [Value.spelling, value?, again]
    refine congrArg (some ∘ Value.finite) (Decimal.canonical_congr ?_)
    rw [Decimal.toRat_writtenOut, Decimal.toRat_canonical]
  · cases negative <;> decide

/-- A spelled numeral has the value of the numeral. -/
@[simp] theorem value?_spelled (text : String) : value? (spelled text) = value? text := by
  rw [spelled]
  split
  · next v read => rw [value?_spelling read, read]
  · rfl

/-- A numeral with a value is spelled as the value is. -/
theorem spelled_of_value? (h : value? text = some v) : spelled text = v.spelling := by
  rw [spelled, h]

/-- Numerals have the same value just if they have the same canonical spelling. -/
theorem spelled_eq_iff (hs : value? s = some v) (ht : value? t = some w) :
    spelled s = spelled t ↔ v = w := by
  constructor
  · intro same
    have := congrArg value? same
    rwa [value?_spelled, value?_spelled, hs, ht, Option.some_inj] at this
  · rintro rfl
    rw [spelled_of_value? hs, spelled_of_value? ht]

end Numeral

end TexAlgebra
