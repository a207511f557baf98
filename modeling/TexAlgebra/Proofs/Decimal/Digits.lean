import TexAlgebra.Proofs.Decimal.Text
/-!
# Digits of decimal numbers

A run of digits is determined by its length and by the number that it spells
(`Decimal.eq_of_ofDigits_eq`). So a number that is written out shows nothing but its value and how
many digits it has after the point, and `Decimal.render_eq` says which text is written of a number
that needs no rounding.
-/

namespace TexAlgebra.Decimal

variable {cs ds : List Char}

/-! ## Runs of digits -/

/-- One more digit makes a number ten times as large, and adds the digit. -/
theorem ofDigits_append_singleton (cs : List Char) (c : Char) :
    ofDigits (cs ++ [c]) = 10 * ofDigits cs + (c.toNat - 48) :=
  List.foldl_append

/-- A number has no more digits than it is written with. -/
theorem ofDigits_lt (digits : ∀ c ∈ cs, isLatinDigit c = true) :
    ofDigits cs < tenTo cs.length := by
  induction cs using List.reverseRecOn with
  | nil => exact tenTo_pos 0
  | append_singleton cs c ih =>
    have digit := isLatinDigit_iff.1 (digits c List.mem_concat_self)
    have fewer := ih fun c hc => digits c (List.mem_append_left _ hc)
    rw [ofDigits_append_singleton, List.length_append, List.length_singleton, tenTo_succ]
    omega

/-- A number that is written without a zero in front has as many digits as it is written with. -/
theorem tenTo_le_ofDigits {c : Char} (digits : ∀ x ∈ c :: cs, isLatinDigit x = true)
    (nonzero : c ≠ '0') : tenTo cs.length ≤ ofDigits (c :: cs) := by
  induction cs using List.reverseRecOn with
  | nil =>
    have digit := isLatinDigit_iff.1 (digits c List.mem_cons_self)
    have other : c.toNat ≠ 48 := fun same => nonzero (Char.toNat_inj.1 same)
    show 1 ≤ 10 * 0 + (c.toNat - 48)
    omega
  | append_singleton cs d ih =>
    have smaller := ih fun x hx => digits x (List.mem_append_left [d] hx)
    rw [← List.cons_append, ofDigits_append_singleton, List.length_append, List.length_singleton,
      tenTo_succ]
    omega

/-- A run of digits is determined by its length and by the number that it spells. -/
theorem eq_of_ofDigits_eq (hc : ∀ c ∈ cs, isLatinDigit c = true)
    (hd : ∀ d ∈ ds, isLatinDigit d = true) (length : cs.length = ds.length)
    (same : ofDigits cs = ofDigits ds) : cs = ds := by
  -- from the last digit on, as the value of a run is defined
  induction cs using List.reverseRecOn generalizing ds with
  | nil => exact (List.length_eq_zero_iff.1 length.symm).symm
  | append_singleton cs c ih =>
    rcases List.eq_nil_or_concat ds with rfl | ⟨ds, d, rfl⟩
    · simp at length
    · rw [List.concat_eq_append] at *
      have digit := isLatinDigit_iff.1 (hc c List.mem_concat_self)
      have digit' := isLatinDigit_iff.1 (hd d List.mem_concat_self)
      rw [ofDigits_append_singleton, ofDigits_append_singleton] at same
      rw [List.length_append, List.length_append] at length
      have last : c = d := Char.toNat_inj.1 (by omega)
      have front : cs = ds := by
        refine ih (fun x hx => hc x (List.mem_append_left _ hx))
          (fun x hx => hd x (List.mem_append_left _ hx)) ?_ (by omega)
        simpa using length
      rw [front, last]

/-- Digits are padded to the width unless they are wider. -/
theorem length_paddedDigits (n width : Nat) :
    (paddedDigits n width).length = max width (digitCount n) := by
  rw [paddedDigits, List.length_append, List.length_replicate, digitCount, String.length]
  omega

/-- Digits come back from the number that they spell if none is missing. -/
theorem paddedDigits_ofDigits {width : Nat} (digits : ∀ c ∈ cs, isLatinDigit c = true)
    (length : cs.length = max width (digitCount (ofDigits cs))) :
    paddedDigits (ofDigits cs) width = cs := by
  refine eq_of_ofDigits_eq (fun c => isLatinDigit_of_mem_paddedDigits) digits ?_
    (ofDigits_paddedDigits _ _)
  rw [length_paddedDigits, length]

/-! ## Zeros in front -/

/-- A number that is not zero is written without a zero in front. -/
theorem head?_repr {n : Nat} (positive : n ≠ 0) : n.repr.toList.head? ≠ some '0' := by
  intro zero
  obtain ⟨cs, form⟩ := List.head?_eq_some_iff.1 zero
  have digits : ∀ c ∈ cs, isLatinDigit c = true := by
    intro c hc
    exact isLatinDigit_of_mem_repr (n := n) (form ▸ List.mem_cons_of_mem _ hc)
  -- the zero does not count, so the digits behind it would have to spell a number that long
  have value : ofDigits cs = n := by
    rw [← ofDigits_repr n, form]
    rfl
  have count : digitCount n = cs.length + 1 := by
    rw [digitCount, String.length, form, List.length_cons]
  have long := tenTo_le_of_lt_digitCount positive (k := cs.length) (by omega)
  exact absurd (ofDigits_lt digits) (not_lt.2 (value ▸ long))

/-- Padded digits start with a zero only if this is the one digit in front of the point. -/
theorem length_paddedDigits_of_zero {n k : Nat} (zero : (paddedDigits n (k + 1)).head? = some '0') :
    (paddedDigits n (k + 1)).length = k + 1 := by
  rw [length_paddedDigits]
  refine max_eq_left (not_lt.1 fun long => ?_)
  have nonzero : n ≠ 0 := by
    rintro rfl
    have one : digitCount 0 = 1 := rfl
    omega
  have unpadded : paddedDigits n (k + 1) = n.repr.toList := by
    have none : k + 1 - n.repr.toList.length = 0 := by
      rw [digitCount, String.length] at long
      omega
    rw [paddedDigits, none, List.replicate_zero, List.nil_append]
  exact head?_repr nonzero (unpadded ▸ zero)

/-! ## Zeros at the end -/

/-- The place of the leading digit depends on the value. -/
theorem leading_eq_of_toRat_eq {a b : Decimal} (positive : a.coefficient ≠ 0)
    (same : a.toRat = b.toRat) : a.leading = b.leading := by
  have positive' : b.coefficient ≠ 0 := by
    rwa [Ne, ← toRat_eq_zero_iff, ← same, toRat_eq_zero_iff]
  have bound : ∀ e, a.leading < e ↔ b.leading < e := by
    intro e
    rw [leading_lt_iff positive, leading_lt_iff positive', same]
  have := bound (a.leading + 1)
  have := bound (b.leading + 1)
  omega

/-- Among the numbers of one value and sign, the coefficient without zeros at its end is the
smallest. -/
theorem exists_zeros {short d : Decimal} (value : short.toRat = d.toRat)
    (bare : short.coefficient % 10 ≠ 0) :
    ∃ k : Nat, short.exponent = d.exponent + k ∧ d.coefficient = short.coefficient * tenTo k := by
  have same : (short.coefficient : ℚ) * 10 ^ short.exponent = d.coefficient * 10 ^ d.exponent := by
    rw [← abs_toRat, value, abs_toRat]
  rcases le_total d.exponent short.exponent with le | ge
  · obtain ⟨k, hk⟩ := Int.le.dest le
    refine ⟨k, hk.symm, ?_⟩
    rw [← hk, add_comm d.exponent, ten_zpow_add, ← mul_assoc, ← cast_tenTo] at same
    have cancelled := mul_right_cancel₀ (ten_zpow_pos d.exponent).ne' same
    exact_mod_cast cancelled.symm
  · obtain ⟨k, hk⟩ := Int.le.dest ge
    rw [← hk, add_comm short.exponent, ten_zpow_add, ← mul_assoc, ← cast_tenTo] at same
    have cancelled := mul_right_cancel₀ (ten_zpow_pos short.exponent).ne' same
    have multiple : short.coefficient = d.coefficient * tenTo k := by exact_mod_cast cancelled
    cases k with
    | zero => exact ⟨0, by omega, by rw [multiple, tenTo_zero, Nat.mul_one, Nat.mul_one]⟩
    | succ k =>
      rw [multiple, tenTo_succ, ← Nat.mul_assoc, Nat.mul_mod_left] at bare
      exact absurd rfl bare

/-- A power of ten adds zeros at the end. -/
theorem repr_mul_tenTo {n : Nat} (positive : n ≠ 0) (k : Nat) :
    (n * tenTo k).repr.toList = n.repr.toList ++ List.replicate k '0' := by
  refine eq_of_ofDigits_eq (fun c => isLatinDigit_of_mem_repr) ?_ ?_ ?_
  · intro c hc
    rcases List.mem_append.1 hc with digit | zero
    · exact isLatinDigit_of_mem_repr digit
    · rw [List.eq_of_mem_replicate zero]
      rfl
  · -- the leading digit of a number does not depend on the zeros at its end
    have same : (ofNat false (n * tenTo k)).toRat = (⟨false, n, k⟩ : Decimal).toRat := by
      rw [toRat_ofNat, toRat_mk, Nat.cast_mul, cast_tenTo]
    have nonzero : n * tenTo k ≠ 0 := Nat.mul_ne_zero positive (tenTo_pos k).ne'
    have lead := leading_eq_of_toRat_eq (show (ofNat false _).coefficient ≠ 0 from nonzero) same
    rw [List.length_append, List.length_replicate]
    simp only [leading, ofNat, digitCount, String.length] at lead
    omega
  · rw [ofDigits_append_zeros, ofDigits_repr, ofDigits_repr]

/-- How a number is written out depends on its form without a positive exponent only. -/
theorem plainDigits_writtenOut (d : Decimal) : d.writtenOut.plainDigits = d.plainDigits := by
  rcases lt_or_ge d.exponent 0 with fraction | whole
  · have same : d.writtenOut = d := by
      rw [writtenOut, Int.toNat_of_nonpos fraction.le, tenTo_zero, Nat.mul_one,
        min_eq_left fraction.le]
    rw [same]
  · have form : d.writtenOut = ⟨d.negative, d.coefficient * tenTo d.exponent.toNat, 0⟩ := by
      rw [writtenOut, min_eq_right whole]
    rw [form, plainDigits, plainDigits, if_neg (Int.lt_irrefl 0), if_neg (Int.not_lt.2 whole)]
    by_cases zero : d.coefficient = 0
    · rw [if_pos zero, if_pos (by rw [zero, Nat.zero_mul])]
    · have nonzero := Nat.mul_ne_zero zero (tenTo_pos d.exponent.toNat).ne'
      rw [if_neg zero, if_neg nonzero]
      exact (List.append_nil _).trans (repr_mul_tenTo zero _)

/-! ## Writing out -/

/-- What is written out of a number depends on its value and on the number of its places alone. -/
theorem plain_unsigned (d : Decimal) :
    plain (if d.isZero then d.magnitude else d) = (toPlaces d.toRat d.places).plain := by
  have form : ∀ d : Decimal, d.negative = decide (d.toRat < 0) →
      d.plain = (toPlaces d.toRat d.places).plain := by
    intro d sign
    have same := eq_toPlaces (d := d.writtenOut) (k := d.places)
      (by rw [toRat_writtenOut]; exact sign) (by simp only [writtenOut, places]; omega)
    rw [toRat_writtenOut] at same
    rw [← same, plain, plain, plainDigits_writtenOut]
    rfl
  split
  · next zero =>
    have none : d.toRat = 0 := (isZero_iff d).1 zero
    have size := toRat_magnitude d
    rw [none, abs_zero] at size
    rw [form _ (by rw [size]; rfl), size, none]
    rfl
  · next nonzero =>
    refine form d ?_
    have nonzero : d.toRat ≠ 0 := fun none => nonzero ((isZero_iff d).2 none)
    cases sign : d.negative with
    | true => exact (decide_eq_true ((toRat_nonpos sign).lt_of_ne nonzero)).symm
    | false => exact (decide_eq_false (not_lt.2 (toRat_nonneg sign))).symm

/-- A number that needs no rounding is written with as many digits after the point as are asked for,
or with as many as it needs. This fails only where zeros are asked for behind so many digits that a
result has no room for them. -/
theorem render_eq {d : Decimal} {f digits : ℕ} (fits : Fits d.toRat)
    (least : IsLeast (exactPlaces d.toRat) f) (low : minExponent ≤ -digits) :
    d.render digits =
      if d.toRat ≠ 0 ∧ f < digits ∧ 10 ^ precision ≤ |d.toRat| * 10 ^ digits then .error .invalid
      else .ok (toPlaces d.toRat (max digits f)).plain := by
  obtain ⟨r, rounded, value⟩ := rounded_of_fits fits
  have normal : d.normalized = .ok r.stripped := by
    rw [normalized, rounded]
    rfl
  have places : r.stripped.places = f :=
    (value ▸ isLeast_places_stripped r : IsLeast (exactPlaces d.toRat) _).unique least
  rw [← toRat_stripped] at value
  rw [render, normal]
  show (if r.stripped.places < digits then d.withPlaces digits >>= _ else _) = _
  rw [places]
  split
  · next fewer =>
    -- the zeros that are missing are added, unless that takes too many digits
    have smallest : minExponent = -1000026 := rfl
    have largest : maxPlaces = 2000054 := rfl
    have exactly := mem_exactPlaces_of_le least.1 fewer.le
    rw [withPlaces_eq (by omega) (by omega) exactly, max_eq_left fewer.le]
    by_cases many : d.toRat ≠ 0 ∧ (10 : ℚ) ^ precision ≤ |d.toRat| * 10 ^ digits
    · rw [if_pos many, if_pos ⟨many.1, fewer, many.2⟩]
      rfl
    · rw [if_neg many, if_neg fun all => many ⟨all.1, all.2.2⟩]
      refine congrArg Except.ok ((plain_unsigned _).trans ?_)
      rw [toRat_units exactly, ← toRat_eq_signFactor_mul_abs]
      simp only [Decimal.places, neg_neg, Int.toNat_natCast]
  · next enough =>
    rw [if_neg fun all => enough all.2.1, max_eq_right (not_lt.1 enough)]
    refine congrArg Except.ok ((plain_unsigned _).trans ?_)
    rw [value, places]

end TexAlgebra.Decimal
