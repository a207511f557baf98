import TexAlgebra.Proofs.Decimal.Digits
import TexAlgebra.Proofs.Numeral
/-!
# Canonical numerals

A numeral is canonical if it has no zero in front that could be left out, no point without a digit
on both sides, and no more digits than a result has. Writing out a canonical numeral gives it back,
digit by digit (`Numeral.render_of_isCanonical`).
-/

namespace TexAlgebra

namespace Decimal

/-- A number of few digits and few places is a result. -/
theorem isResult_of_few {n k : Nat} (digits : n < tenTo precision) (few : k ≤ precision) :
    IsResult ⟨false, n, -k⟩ := by
  have limit : precision = 28 := rfl
  have smallest : minExponent = -1000026 := rfl
  have largest : maxExponent = 999999 := rfl
  have count : digitCount n ≤ precision := (digitCount_le_iff (by decide)).2 digits
  refine ⟨digits.le, ?_, ?_⟩
  · simp only
    omega
  · simp only [leading]
    omega

/-- A number without a sign and with few digits is written out as it is. -/
theorem render_places {n k : Nat} (digits : n < tenTo precision) (few : k ≤ precision) :
    render ⟨false, n, -k⟩ k = .ok (plain ⟨false, n, -k⟩) := by
  have limit : precision = 28 := rfl
  have smallest : minExponent = -1000026 := rfl
  have fits := (isResult_of_few digits few).fits
  have own : (⟨false, n, -k⟩ : Decimal) = toPlaces (toRat ⟨false, n, -k⟩) k :=
    eq_toPlaces (decide_eq_false (not_lt.2 (toRat_nonneg rfl))).symm rfl
  generalize hd : (⟨false, n, -k⟩ : Decimal) = d at fits own ⊢
  have exactly : k ∈ exactPlaces d.toRat := by
    refine mem_exactPlaces_of_places_le ?_
    rw [← hd, places, Int.neg_neg, Int.toNat_natCast]
  have room : |d.toRat| * 10 ^ k < 10 ^ precision := by
    rw [abs_toRat_mul (by rw [← hd]), ← zpow_natCast, ← cast_tenTo, ← hd]
    exact_mod_cast digits
  have least := isLeast_places_stripped d
  rw [render_eq fits least (by omega), if_neg fun all => absurd all.2.2 (not_le.2 room),
    max_eq_left (least.2 exactly), ← own]

end Decimal

namespace Numeral

open Decimal

/-! ## Canonical numerals -/

/-- Whether digits before and behind a point, the latter possibly none, make up a numeral with no
more digits than a result has. -/
structure IsShortSplit (whole fraction : List Char) : Prop where
  nonempty : whole ≠ []
  digits : ∀ c ∈ whole ++ fraction, isLatinDigit c = true
  few : (whole ++ fraction).length ≤ precision

/-- Whether, moreover, no zero in front could be left out. -/
structure IsCanonicalSplit (whole fraction : List Char) : Prop extends
    IsShortSplit whole fraction where
  noZero : whole.head? = some '0' → whole = ['0']

/-- The characters of a numeral, where the point is left out if no digits follow. -/
def splitChars (whole fraction : List Char) : List Char :=
  whole ++ if fraction = [] then [] else '.' :: fraction

/-- The number that a numeral spells. -/
def splitValue (whole fraction : List Char) : Decimal :=
  ⟨false, ofDigits (whole ++ fraction), -(fraction.length : ℤ)⟩

/-- Whether a text is a canonical numeral. -/
def IsCanonical (text : String) : Prop :=
  ∃ whole fraction, IsCanonicalSplit whole fraction ∧
    text = String.ofList (splitChars whole fraction)

section

variable {whole fraction : List Char}

/-- The digits of a short numeral are below the power of ten of the precision. -/
theorem IsShortSplit.ofDigits_lt (h : IsShortSplit whole fraction) :
    ofDigits (whole ++ fraction) < tenTo precision :=
  (Decimal.ofDigits_lt h.digits).trans_le (tenTo_le_tenTo h.few)

/-- A short numeral has no more places than the precision. -/
theorem IsShortSplit.length_fraction_le (h : IsShortSplit whole fraction) :
    fraction.length ≤ precision := by
  have few := h.few
  rw [List.length_append] at few
  omega

/-- The value of a numeral is written out as the numeral writes it. -/
theorem writtenOut_splitValue (whole fraction : List Char) :
    (splitValue whole fraction).writtenOut = splitValue whole fraction := by
  have low : -(fraction.length : ℤ) ≤ 0 := by omega
  rw [writtenOut, splitValue, Int.toNat_of_nonpos low, tenTo_zero, Nat.mul_one, min_eq_left low]

/-- A numeral of digits and a point has plain characters. -/
theorem mem_plainCharacters_of_digits (digits : ∀ c ∈ whole ++ fraction, isLatinDigit c = true) :
    ∀ c ∈ whole ++ '.' :: fraction, c ∈ plainCharacters := by
  have digit : ∀ c ∈ whole ++ fraction, c ∈ plainCharacters :=
    fun c hc => mem_plainCharacters_of_isLatinDigit (digits c hc)
  intro c hc
  rcases List.mem_append.1 hc with hc | hc
  · exact digit c (List.mem_append_left _ hc)
  rcases List.mem_cons.1 hc with rfl | hc
  · decide
  · exact digit c (List.mem_append_right _ hc)

/-- Digits with a point between or behind them spell a number with as many places as digits follow
the point, unless it is too large or too small. -/
theorem ofText?_point (nonempty : whole ≠ [])
    (digits : ∀ c ∈ whole ++ fraction, isLatinDigit c = true) :
    Decimal.ofText? (String.ofList (whole ++ '.' :: fraction)) =
      (some (splitValue whole fraction)).filter isWithinLimits := by
  rw [Decimal.ofText?, spelling_ofList (mem_plainCharacters_of_digits digits)]
  exact congrArg _ (ofChars?_point false nonempty (fun c hc => digits c (List.mem_append_left _ hc))
    fun c hc => digits c (List.mem_append_right _ hc))

/-- Digits alone spell a number without places. -/
theorem ofText?_whole (nonempty : whole ≠ []) (digits : ∀ c ∈ whole, isLatinDigit c = true) :
    Decimal.ofText? (String.ofList whole) =
      (some (splitValue whole [])).filter isWithinLimits := by
  rw [Decimal.ofText?, splitValue, List.append_nil,
    spelling_ofList fun c hc => mem_plainCharacters_of_isLatinDigit (digits c hc)]
  exact congrArg _ (ofChars?_whole false nonempty digits)

/-- A short numeral is within the limits of what can be read. -/
theorem IsShortSplit.isWithinLimits (h : IsShortSplit whole fraction) :
    (splitValue whole fraction).isWithinLimits = true :=
  writtenOut_splitValue whole fraction ▸
    (isResult_of_few h.ofDigits_lt h.length_fraction_le).isWithinLimits

/-- A short numeral with a point is read. -/
theorem IsShortSplit.ofText?_point (h : IsShortSplit whole fraction) :
    Decimal.ofText? (String.ofList (whole ++ '.' :: fraction)) =
      some (splitValue whole fraction) := by
  rw [Numeral.ofText?_point h.nonempty h.digits, Option.filter_some, if_pos h.isWithinLimits]

/-- A short numeral spells a number with as many places as it has digits behind the point. -/
theorem IsShortSplit.ofText?_eq (h : IsShortSplit whole fraction) :
    Decimal.ofText? (String.ofList (splitChars whole fraction)) =
      some (splitValue whole fraction) := by
  rw [splitChars]
  split
  · next none =>
    subst none
    rw [List.append_nil, ofText?_whole h.nonempty fun c hc =>
      h.digits c (List.mem_append_left _ hc), Option.filter_some, if_pos h.isWithinLimits]
  · exact h.ofText?_point

/-- What stands before the point has no places. -/
theorem fractionalDigits_append {front rest : List Char} (plain : ∀ c ∈ front, c ≠ '.') :
    fractionalDigits (String.ofList (front ++ rest)) = fractionalDigits (String.ofList rest) := by
  rw [fractionalDigits, fractionalDigits, String.toList_ofList, String.toList_ofList,
    List.dropWhile_append_of_pos fun c hc => decide_eq_true (plain c hc)]

/-- Behind the point every digit is a place. -/
theorem fractionalDigits_point (fraction : List Char) :
    fractionalDigits (String.ofList ('.' :: fraction)) = fraction.length := by
  rw [fractionalDigits, String.toList_ofList]
  rfl

/-- No digit is a point. -/
theorem ne_point_of_isLatinDigit {c : Char} (h : isLatinDigit c = true) : c ≠ '.' := by
  rintro rfl
  exact absurd (isLatinDigit_iff.1 h) (by decide)

/-- The digits behind the point of a numeral are counted. -/
theorem fractionalDigits_splitChars (digits : ∀ c ∈ whole, isLatinDigit c = true) :
    fractionalDigits (String.ofList (splitChars whole fraction)) = fraction.length := by
  rw [splitChars, fractionalDigits_append fun c hc => ne_point_of_isLatinDigit (digits c hc)]
  split
  · next none =>
    rw [none]
    rfl
  · exact fractionalDigits_point fraction

/-- No digit of a canonical numeral is lost in its value. -/
theorem IsCanonicalSplit.paddedDigits_eq (h : IsCanonicalSplit whole fraction) :
    paddedDigits (ofDigits (whole ++ fraction)) (fraction.length + 1) = whole ++ fraction := by
  obtain ⟨⟨nonempty, digits, few⟩, noZero⟩ := h
  refine paddedDigits_ofDigits digits ?_
  obtain ⟨c, cs, rfl⟩ := List.exists_cons_of_ne_nil nonempty
  have upper : digitCount (ofDigits (c :: cs ++ fraction)) ≤ cs.length + fraction.length + 1 := by
    rw [digitCount_le_iff (Nat.succ_pos _)]
    simpa [Nat.add_right_comm] using Decimal.ofDigits_lt digits
  rw [List.length_append, List.length_cons]
  by_cases zero : c = '0'
  · obtain rfl : cs = [] := by simpa [zero] using noZero
    simp only [List.length_nil] at upper ⊢
    omega
  · -- the first digit counts, so the value has as many digits as the run
    have lower := tenTo_le_ofDigits digits zero
    have count := lt_tenTo_digitCount (ofDigits (c :: cs ++ fraction))
    have long : (cs ++ fraction).length < digitCount (ofDigits (c :: cs ++ fraction)) := by
      by_contra short
      have := tenTo_le_tenTo (not_lt.1 short)
      exact absurd (lower.trans_lt count) (not_lt.2 this)
    rw [List.length_append] at long
    omega

/-- Writing out the value of a canonical numeral gives the numeral. -/
theorem IsCanonicalSplit.plain_eq (h : IsCanonicalSplit whole fraction) :
    (splitValue whole fraction).plain = String.ofList (splitChars whole fraction) := by
  have kept := h.paddedDigits_eq
  rw [Decimal.plain, splitValue, if_neg Bool.false_ne_true, splitChars, plainDigits]
  by_cases none : fraction = []
  · subst none
    simp only [List.append_nil, List.length_nil, Nat.zero_add] at kept
    simp only [List.length_nil, List.append_nil, if_true, Int.natCast_zero, Int.neg_zero,
      Int.lt_irrefl, if_false, Int.toNat_zero, List.replicate_zero]
    refine congrArg String.ofList (Eq.trans ?_ kept)
    split
    · -- zero is written with one digit
      next zero =>
      rw [zero]
      rfl
    · have long : 1 - (ofDigits whole).repr.toList.length = 0 := by
        have := Nat.length_repr_pos (n := ofDigits whole)
        rw [String.length] at this
        omega
      rw [paddedDigits, long]
      rfl
  · have point : -(fraction.length : ℤ) < 0 := by
      have := List.length_pos_iff.2 none
      omega
    have places : Decimal.places ⟨false, ofDigits (whole ++ fraction), -fraction.length⟩ =
        fraction.length := by
      simp [Decimal.places]
    simp only [point, none, if_true, if_false, places, kept, List.length_append,
      Nat.add_sub_cancel, List.take_left, List.drop_left]

end

/-- Writing out a canonical numeral gives it back. -/
theorem render_of_isCanonical {text : String} (h : IsCanonical text) : render text = .ok text := by
  obtain ⟨whole, fraction, split, rfl⟩ := h
  unfold render renderWith
  rw [fractionalDigits_splitChars fun c hc => split.digits c (List.mem_append_left _ hc),
    split.ofText?_eq]
  have shown := render_places split.ofDigits_lt split.length_fraction_le
  show written (splitValue whole fraction) fraction.length = _
  rw [written, splitValue, shown, ← split.plain_eq]
  rfl

end Numeral

end TexAlgebra
