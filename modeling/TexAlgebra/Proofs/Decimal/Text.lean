import TexAlgebra.Decimal.Text
import TexAlgebra.Proofs.Computation
import TexAlgebra.Proofs.Decimal.Arithmetic
import TexAlgebra.Proofs.Decimal.Places
import Mathlib.Data.List.TakeWhile
import Mathlib.Tactic.FinCases
import Mathlib.Tactic.IntervalCases
/-!
# Texts of decimal numbers

Reading a number that was written out gives it back, in the form without a positive exponent. So the
text of a result spells its value, however many digits after the point are asked for.
-/

namespace TexAlgebra.Decimal

/-! ## Plain characters -/

/-- The characters of a number that is written out. -/
def plainCharacters : List Char := ['0', '1', '2', '3', '4', '5', '6', '7', '8', '9', '.', '-']

/-- Plain characters are read as they are: no blanks, no underscores, and no digits of other
scripts. -/
theorem plainCharacters_spec : ∀ c ∈ plainCharacters,
    Text.isBlank c = false ∧ c ≠ '_' ∧ latinDigit c = c := by
  intro c hc
  fin_cases hc <;> decide

theorem isLatinDigit_iff {c : Char} : isLatinDigit c = true ↔ 48 ≤ c.toNat ∧ c.toNat ≤ 57 := by
  rw [isLatinDigit, decide_eq_true_iff, Char.le_def, Char.le_def, UInt32.le_iff_toNat_le,
    UInt32.le_iff_toNat_le]
  rfl

theorem mem_plainCharacters_of_isLatinDigit {c : Char} (h : isLatinDigit c = true) :
    c ∈ plainCharacters := by
  obtain ⟨low, high⟩ := isLatinDigit_iff.1 h
  rw [← Char.ofNat_toNat c]
  generalize c.toNat = n at low high
  interval_cases n <;> decide

/-- A text without blanks has none at its ends. -/
theorem trim_ofList {cs : List Char} (h : ∀ c ∈ cs, Text.isBlank c = false) :
    Text.trim (String.ofList cs) = String.ofList cs := by
  have none : ∀ cs : List Char, (∀ c ∈ cs, Text.isBlank c = false) →
      cs.dropWhile Text.isBlank = cs := by
    intro cs h
    cases cs with
    | nil => rfl
    | cons c cs => exact List.dropWhile_cons_of_neg (by simp [h c List.mem_cons_self])
  have reversed := none cs.reverse fun c hc => h c (List.mem_reverse.1 hc)
  rw [Text.trim, Text.trimEnd, String.toList_ofList, String.toList_ofList, none cs h, reversed,
    List.reverse_reverse]

/-- Every character of a number that is written out counts as it stands. -/
theorem spelling_ofList {cs : List Char} (h : ∀ c ∈ cs, c ∈ plainCharacters) :
    spelling (String.ofList cs) = cs := by
  have spec := fun c hc => plainCharacters_spec c (h c hc)
  rw [spelling, trim_ofList fun c hc => (spec c hc).1, String.toList_ofList,
    List.filter_eq_self.2 fun c hc => by simpa using (spec c hc).2.1]
  exact (List.map_congr_left fun c hc => (spec c hc).2.2).trans (List.map_id' cs)

/-! ## Reading -/

/-- A sign in front of digits. -/
def signedChars (negative : Bool) (cs : List Char) : List Char :=
  if negative then '-' :: cs else cs

/-- Digits stand for the number that they are in base ten. -/
theorem ofDigits_eq (cs : List Char) : ofDigits cs = Nat.ofDigitChars 10 cs 0 := rfl

/-- A run of digits spells a whole number. -/
theorem unsignedOfChars?_whole {cs : List Char} (negative : Bool) (nonempty : cs ≠ [])
    (digits : ∀ c ∈ cs, isLatinDigit c = true) :
    unsignedOfChars? negative cs = some ⟨negative, ofDigits cs, 0⟩ := by
  have whole : cs.takeWhile isLatinDigit = cs := List.takeWhile_eq_self_iff.2 digits
  rw [unsignedOfChars?]
  simp only [whole, List.drop_length, nonempty, false_and, if_false, powerOfChars?,
    Option.map_some, List.append_nil, List.length_nil]
  rfl

/-- Digits behind a point lower the exponent. -/
theorem unsignedOfChars?_point {cs ds : List Char} (negative : Bool) (nonempty : cs ≠ [])
    (digits : ∀ c ∈ cs, isLatinDigit c = true) (digits' : ∀ c ∈ ds, isLatinDigit c = true) :
    unsignedOfChars? negative (cs ++ '.' :: ds) =
      some ⟨negative, ofDigits (cs ++ ds), -ds.length⟩ := by
  have whole : (cs ++ '.' :: ds).takeWhile isLatinDigit = cs := by
    rw [List.takeWhile_append_of_pos digits]
    exact List.append_nil cs
  have fraction : ds.takeWhile isLatinDigit = ds := List.takeWhile_eq_self_iff.2 digits'
  rw [unsignedOfChars?]
  simp only [whole, List.drop_left, fraction, List.drop_length, nonempty, false_and, if_false,
    powerOfChars?, Option.map_some]
  rw [Int.zero_sub]

/-- A sign counts if a digit follows. -/
theorem ofChars?_signedChars {cs : List Char} (rest : List Char) (negative : Bool)
    (nonempty : cs ≠ [])
    (digits : ∀ c ∈ cs, isLatinDigit c = true) :
    ofChars? (signedChars negative (cs ++ rest)) = unsignedOfChars? negative (cs ++ rest) := by
  cases negative with
  | true => rfl
  | false =>
    obtain ⟨c, cs, rfl⟩ := List.exists_cons_of_ne_nil nonempty
    have digit := digits c List.mem_cons_self
    rw [signedChars, if_neg Bool.false_ne_true, ofChars?]
    · intro r h
      cases h
      exact absurd digit (by decide)
    · intro r h
      cases h
      exact absurd digit (by decide)

/-- Digits with or without a sign are read as a whole number. -/
theorem ofChars?_whole {cs : List Char} (negative : Bool) (nonempty : cs ≠ [])
    (digits : ∀ c ∈ cs, isLatinDigit c = true) :
    ofChars? (signedChars negative cs) = some ⟨negative, ofDigits cs, 0⟩ := by
  have read := ofChars?_signedChars [] negative nonempty digits
  rw [List.append_nil] at read
  rw [read, unsignedOfChars?_whole negative nonempty digits]

/-- Digits around a point are read as their number with as many places as there are behind it. -/
theorem ofChars?_point {cs ds : List Char} (negative : Bool) (nonempty : cs ≠ [])
    (digits : ∀ c ∈ cs, isLatinDigit c = true) (digits' : ∀ c ∈ ds, isLatinDigit c = true) :
    ofChars? (signedChars negative (cs ++ '.' :: ds)) =
      some ⟨negative, ofDigits (cs ++ ds), -ds.length⟩ := by
  rw [ofChars?_signedChars _ negative nonempty digits,
    unsignedOfChars?_point negative nonempty digits digits']

/-! ## Writing -/

/-- The number `d` without a positive exponent, as it is written out. -/
def writtenOut (d : Decimal) : Decimal :=
  ⟨d.negative, d.coefficient * tenTo d.exponent.toNat, min d.exponent 0⟩

/-- Writing a number out keeps its value. -/
@[simp] theorem toRat_writtenOut (d : Decimal) : d.writtenOut.toRat = d.toRat := by
  rw [writtenOut, toRat_mk, toRat, Nat.cast_mul, mul_assoc (d.coefficient : ℚ), cast_tenTo,
    ← ten_zpow_add]
  congr 3
  omega

/-- What is written out is written out once. -/
@[simp] theorem writtenOut_writtenOut (d : Decimal) : d.writtenOut.writtenOut = d.writtenOut := by
  have low : min d.exponent 0 ≤ 0 := min_le_right _ _
  simp only [writtenOut, Int.toNat_of_nonpos low, tenTo_zero, Nat.mul_one, min_eq_left low]

/-- Writing a number out keeps its places. -/
theorem places_writtenOut (d : Decimal) : d.writtenOut.places = d.places := by
  simp only [places, writtenOut]
  omega

/-- A number is written with digits. -/
theorem isLatinDigit_of_mem_repr {n : Nat} {c : Char} (h : c ∈ n.repr.toList) :
    isLatinDigit c = true := by
  rw [Nat.toList_repr] at h
  have digit := Nat.isDigit_of_mem_toDigits (by decide) (by decide) h
  rw [Char.isDigit_iff_toNat] at digit
  exact isLatinDigit_iff.2 digit

/-- Zeros at the end make a number larger by a power of ten. -/
theorem ofDigits_append_zeros (cs : List Char) (n : Nat) :
    ofDigits (cs ++ List.replicate n '0') = ofDigits cs * tenTo n := by
  rw [ofDigits_eq, Nat.ofDigitChars_append, Nat.ofDigitChars_replicate_zero, Nat.mul_comm]
  rfl

/-- A number is read from its digits. -/
theorem ofDigits_repr (n : Nat) : ofDigits n.repr.toList = n := by
  rw [Nat.toList_repr]
  exact Nat.ofDigitChars_ten_toDigits

/-- Zeros in front are digits, too. -/
theorem isLatinDigit_of_mem_paddedDigits {n width : Nat} {c : Char} (h : c ∈ paddedDigits n width) :
    isLatinDigit c = true := by
  rcases List.mem_append.1 h with zero | digit
  · rw [List.eq_of_mem_replicate zero]
    rfl
  · exact isLatinDigit_of_mem_repr digit

/-- Zeros in front do not change a number. -/
theorem ofDigits_paddedDigits (n width : Nat) : ofDigits (paddedDigits n width) = n := by
  rw [paddedDigits, ofDigits_eq, Nat.ofDigitChars_append, Nat.ofDigitChars_replicate_zero,
    Nat.mul_zero]
  exact ofDigits_repr n

/-- Padded digits have the width at least. -/
theorem le_length_paddedDigits (n width : Nat) : width ≤ (paddedDigits n width).length := by
  rw [paddedDigits, List.length_append, List.length_replicate]
  omega

/-- Reading the digits of a number gives the number as it is written out. -/
theorem ofChars?_plainDigits (d : Decimal) :
    ofChars? (signedChars d.negative d.plainDigits) = some d.writtenOut := by
  rw [plainDigits]
  split
  · next fractional =>
    -- the padding leaves a digit in front of the point, so both runs can be read
    have long := le_length_paddedDigits d.coefficient (d.places + 1)
    have digits : ∀ c ∈ paddedDigits d.coefficient (d.places + 1), isLatinDigit c = true :=
      fun c => isLatinDigit_of_mem_paddedDigits
    have value := ofDigits_paddedDigits d.coefficient (d.places + 1)
    generalize paddedDigits d.coefficient (d.places + 1) = cs at *
    have nonempty : cs.take (cs.length - d.places) ≠ [] := by
      rw [← List.length_pos_iff, List.length_take]
      omega
    show ofChars? (signedChars d.negative (cs.take _ ++ '.' :: cs.drop _)) = _
    rw [ofChars?_point d.negative nonempty (fun c hc => digits c (List.mem_of_mem_take hc))
      (fun c hc => digits c (List.mem_of_mem_drop hc)), List.take_append_drop, value,
      List.length_drop, writtenOut, Int.toNat_of_nonpos (by omega), tenTo_zero, Nat.mul_one]
    rw [places] at long ⊢
    congr 2
    omega
  next whole =>
  rw [writtenOut, Int.min_eq_right (by omega)]
  split
  · next zero =>
    rw [zero, Nat.zero_mul]
    exact ofChars?_whole d.negative (List.cons_ne_nil _ _) (List.all_eq_true.1 rfl)
  · next nonzero =>
    rw [ofChars?_whole, ofDigits_append_zeros, ofDigits_repr]
    · simp
    · intro c hc
      rcases List.mem_append.1 hc with digit | zero
      · exact isLatinDigit_of_mem_repr digit
      · rw [List.eq_of_mem_replicate zero]
        rfl

/-- A number is written with plain characters. -/
theorem mem_plainCharacters_of_mem_plainDigits {d : Decimal} {c : Char} (h : c ∈ d.plainDigits) :
    c ∈ plainCharacters := by
  have digit := fun n width (h : c ∈ paddedDigits n width) =>
    mem_plainCharacters_of_isLatinDigit (isLatinDigit_of_mem_paddedDigits h)
  rw [plainDigits] at h
  split at h
  · rcases List.mem_append.1 h with whole | h
    · exact digit _ _ (List.mem_of_mem_take whole)
    rcases List.mem_cons.1 h with rfl | fraction
    · decide
    · exact digit _ _ (List.mem_of_mem_drop fraction)
  split at h
  · rw [List.mem_singleton.1 h]
    decide
  · rcases List.mem_append.1 h with whole | zero
    · exact mem_plainCharacters_of_isLatinDigit (isLatinDigit_of_mem_repr whole)
    · rw [List.eq_of_mem_replicate zero]
      decide

/-- A number that is written out spells itself. -/
theorem ofText?_plain {d : Decimal} (limits : d.writtenOut.isWithinLimits = true) :
    ofText? d.plain = some d.writtenOut := by
  have text : d.plain = String.ofList (signedChars d.negative d.plainDigits) := rfl
  have plain : ∀ c ∈ signedChars d.negative d.plainDigits, c ∈ plainCharacters := by
    intro c h
    rw [signedChars] at h
    split at h
    · rcases List.mem_cons.1 h with rfl | h
      · decide
      · exact mem_plainCharacters_of_mem_plainDigits h
    · exact mem_plainCharacters_of_mem_plainDigits h
  rw [ofText?, text, spelling_ofList plain, ofChars?_plainDigits, Option.filter_some, if_pos limits]

/-- A number that fits is not too large to be read again, nor too small unless its exponent is. -/
theorem isWithinLimits_writtenOut {d : Decimal} (fits : Fits d.toRat)
    (low : minExponent ≤ d.exponent) : d.writtenOut.isWithinLimits = true := by
  have low : minExponent ≤ d.writtenOut.exponent := le_min low (by decide)
  have lowest : (-1999999999999999997 : ℤ) ≤ minExponent := by decide
  have highest : maxExponent ≤ (999999999999999999 : ℤ) := by decide
  rw [Decimal.isWithinLimits, Bool.and_eq_true, decide_eq_true_iff, decide_eq_true_iff]
  refine ⟨by omega, ?_⟩
  split
  · have := Int.min_le_right d.exponent 0
    show min d.exponent 0 ≤ _
    omega
  · next nonzero =>
    rw [isZero_iff, toRat_eq_zero_iff] at nonzero
    have := (leading_lt_iff nonzero (maxExponent + 1)).2 (by
      rw [toRat_writtenOut]
      exact abs_lt_of_fits fits)
    omega

/-- No result is too large or too small to be read again. -/
theorem IsResult.isWithinLimits {d : Decimal} (h : d.IsResult) :
    d.writtenOut.isWithinLimits = true :=
  isWithinLimits_writtenOut h.fits h.exponent_ge

/-! ## Results -/

/-- A number is a result if its value fits and its parts are within the limits. -/
theorem isResult_of_fits {d : Decimal} (digits : d.coefficient < tenTo precision)
    (low : minExponent ≤ d.exponent) (high : d.coefficient = 0 → d.exponent ≤ maxExponent)
    (fits : Fits d.toRat) : d.IsResult := by
  refine ⟨digits.le, low, ?_⟩
  by_cases zero : d.coefficient = 0
  · have one : digitCount 0 = 1 := rfl
    have := high zero
    rw [leading, zero, one]
    omega
  · have := (leading_lt_iff zero (maxExponent + 1)).2 (abs_lt_of_fits fits)
    omega

/-- A result without the zeros at its end is a result, and below the power of ten of the precision.
-/
theorem IsResult.stripped {d : Decimal} (h : d.IsResult) :
    d.stripped.IsResult ∧ d.stripped.coefficient < tenTo precision := by
  have size := (coefficient_stripped_le d).trans h.coefficient_le
  by_cases zero : d.coefficient = 0
  · have parts : d.stripped = ⟨d.negative, d.coefficient, 0⟩ := by
      rw [Decimal.stripped, if_pos zero]
    have few : d.stripped.coefficient < tenTo precision := by
      rw [parts, zero]
      exact tenTo_pos _
    refine ⟨isResult_of_fits few ?_ ?_ ?_, few⟩
    · rw [parts]
      show minExponent ≤ 0
      decide
    · rw [parts]
      intro _
      show 0 ≤ maxExponent
      decide
    · rw [toRat_stripped]
      exact h.fits
  · have few : d.stripped.coefficient < tenTo precision := by
      refine Nat.lt_of_le_of_ne size fun carry => ?_
      have short := coefficient_stripped_mod zero
      rw [carry] at short
      exact short (by decide)
    refine ⟨isResult_of_fits few ?_ ?_ ?_, few⟩
    · exact h.exponent_ge.trans (exponent_le_stripped zero)
    · intro empty
      have short := coefficient_stripped_mod zero
      rw [empty] at short
      exact absurd rfl short
    · rw [toRat_stripped]
      exact h.fits

/-- How `text` shows the number `q`: it is a result with few digits, written out. -/
structure Shows (text : String) (q : ℚ) (shown : Decimal) : Prop where
  text_eq : text = shown.plain
  value : shown.toRat = q
  result : shown.IsResult
  digits : shown.coefficient < tenTo precision

/-- A zero loses its sign when it is shown. -/
theorem shows_unsigned {d : Decimal} (result : d.IsResult)
    (digits : d.coefficient < tenTo precision) :
    ∃ shown, Shows (plain (if d.isZero then d.magnitude else d)) d.toRat shown := by
  split
  · next zero =>
    rw [isZero_iff] at zero
    refine ⟨d.magnitude, rfl, ?_, ⟨result.1, result.2, result.3⟩, digits⟩
    rw [toRat_magnitude, zero, abs_zero]
  · exact ⟨d, rfl, rfl, result, digits⟩

/-- What is written of a number is the rounded number without zeros at its end or, if this has too
few digits after the point, the number itself with as many as are asked for. -/
theorem exists_of_render {d : Decimal} {digits : Nat} {text : String}
    (h : d.render digits = .ok text) : ∃ r shown, d.rounded = .ok r ∧
      text = plain (if shown.isZero then shown.magnitude else shown) ∧
        (shown = r.stripped ∨ r.stripped.places < digits ∧ d.withPlaces digits = .ok shown) := by
  obtain ⟨short, normal, h⟩ := ok_of_bind h
  rw [normalized] at normal
  cases rounded : d.rounded with
  | error signal =>
    rw [rounded] at normal
    cases normal
  | ok r =>
    rw [rounded] at normal
    cases normal
    dsimp only at h
    split at h
    · next fewer =>
      obtain ⟨shown, written, h⟩ := ok_of_bind h
      exact ⟨r, shown, rfl, (ok_of_pure h).symm, .inr ⟨fewer, written⟩⟩
    · obtain ⟨shown, short, h⟩ := ok_of_bind h
      exact ⟨r, shown, rfl, (ok_of_pure h).symm, .inl (ok_of_pure short).symm⟩

/-- Every text of a number shows a number, which may be rounded. -/
theorem exists_shows {d : Decimal} {digits : Nat} {text : String} (h : d.render digits = .ok text) :
    ∃ q shown, Shows text q shown := by
  obtain ⟨r, shown, rounded, rfl, rfl | ⟨-, written⟩⟩ := exists_of_render h
  · obtain ⟨result, few⟩ := (isResult_rounded rounded).stripped
    exact ⟨_, shows_unsigned result few⟩
  · obtain ⟨result, few⟩ := isResult_withPlaces written
    exact ⟨_, shows_unsigned result few⟩

/-- The text of a number that fits shows its value. -/
theorem shows_render {d : Decimal} {digits : Nat} {text : String} (fits : Fits d.toRat)
    (h : d.render digits = .ok text) : ∃ shown, Shows text d.toRat shown := by
  obtain ⟨r, shown, rounded, rfl, source⟩ := exists_of_render h
  obtain ⟨exactly, rounded', value⟩ := rounded_of_fits fits
  cases rounded.symm.trans rounded'
  rw [← toRat_stripped] at value
  obtain ⟨result, few⟩ := (isResult_rounded rounded).stripped
  obtain rfl | ⟨fewer, written⟩ := source
  · exact value ▸ shows_unsigned result few
  · have exactly : min digits (-minExponent).toNat ∈ exactPlaces d.toRat := by
      have smallest : minExponent = -1000026 := rfl
      have low := result.exponent_ge
      rw [← value]
      refine mem_exactPlaces_of_places_le (le_min fewer.le ?_)
      rw [places]
      omega
    have same := toRat_withPlaces exactly written
    obtain ⟨result, few⟩ := isResult_withPlaces written
    exact same ▸ shows_unsigned result few

/-- A text that shows a number spells it. -/
theorem Shows.ofText? {text : String} {q : ℚ} {shown : Decimal} (h : Shows text q shown) :
    Decimal.ofText? text = some shown.writtenOut := by
  rw [h.text_eq]
  exact ofText?_plain h.result.isWithinLimits

end TexAlgebra.Decimal
