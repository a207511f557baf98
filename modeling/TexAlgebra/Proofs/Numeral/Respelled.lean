import TexAlgebra.Proofs.Decimal.Rounded
import TexAlgebra.Proofs.Matching
import TexAlgebra.Proofs.Numeral
/-!
# Spellings of a number

Two numerals spell the same number if they have the same value, be it finite or infinite
(`Numeral.Respells`). What is computed from numerals depends on their values alone, up to the number
of digits that are shown: a sign and an operation turn spellings of the same numbers into spellings
of the same number, and an operation is undefined for all spellings of its operands or for none.
-/

namespace TexAlgebra

open Decimal

/-! ## Powers with an infinity -/

namespace Decimal.Special

variable {a b : Decimal}

/-- A power to an infinity depends on the value of the base. -/
theorem powerToInfinity?_congr (same : a.toRat = b.toRat) (negative : Bool) :
    powerToInfinity? a negative = powerToInfinity? b negative := by
  rw [powerToInfinity?, powerToInfinity?, isZero_congr same]
  split
  · rfl
  next nonzero =>
  rw [isZero_iff, ← same] at nonzero
  have positive : a.coefficient ≠ 0 := (toRat_eq_zero_iff a).not.1 nonzero
  have one_iff : a.sameValue one = b.sameValue one := by
    rw [Bool.eq_iff_iff, sameValue_iff, sameValue_iff, same]
  rw [negative_eq_of_toRat_eq same nonzero, one_iff, leading_eq_of_toRat_eq positive same]

/-- A power of an infinity depends on the value of the exponent. -/
theorem powerOfInfinity?_congr (same : a.toRat = b.toRat) (negative : Bool) :
    powerOfInfinity? negative a = powerOfInfinity? negative b := by
  rw [powerOfInfinity?, powerOfInfinity?, isZero_congr same]
  split
  · rfl
  next nonzero =>
  rw [isZero_iff, ← same] at nonzero
  rw [negative_eq_of_toRat_eq same nonzero, isWhole_congr same]

/-- The finite powers with an infinity are zero and one. -/
theorem fits_zero_or_one {r : Decimal} (h : r = ofNat false 0 ∨ r = one) : Fits r.toRat := by
  obtain rfl | rfl := h
  · exact (isResult_ofNat false (by decide)).fits
  · exact (isResult_ofNat false (by decide)).fits

/-- A power to an infinity that is a number is zero or one. -/
theorem eq_of_powerToInfinity? {r : Decimal} {negative : Bool}
    (h : powerToInfinity? a negative = some r) : r = ofNat false 0 ∨ r = one := by
  rw [powerToInfinity?] at h
  split_ifs at h
  all_goals cases h
  exacts [.inl rfl, .inr rfl, .inl rfl]

/-- A power of an infinity that is a number is zero or one. -/
theorem eq_of_powerOfInfinity? {r : Decimal} {negative : Bool}
    (h : powerOfInfinity? negative a = some r) : r = ofNat false 0 ∨ r = one := by
  rw [powerOfInfinity?] at h
  split_ifs at h
  all_goals cases h
  exacts [.inr rfl, .inl rfl]

end Decimal.Special

namespace Numeral

/-! ## Numerals with the same value -/

/-- Whether two numerals have the same value. -/
def Respells (s t : String) : Prop := ∃ v, value? s = some v ∧ value? t = some v

variable {s t a b c d : String}

/-- A text that is taken for an infinity stands for one. -/
theorem ofText?_of_special {negative : Bool} (h : special s = .ok (.infinity negative)) :
    Special.ofText? s = some (.infinity negative) := by
  rw [special] at h
  split at h
  · next found =>
    cases h
    exact found
  · cases h

/-- Spellings of one number are both finite and stand for the same rational, or both infinite. -/
theorem Respells.cases (h : Respells s t) :
    (∃ x y, Decimal.ofText? s = some x ∧ Decimal.ofText? t = some y ∧ x.toRat = y.toRat) ∨
      ∃ negative, (Decimal.ofText? s = none ∧ Special.ofText? s = some (.infinity negative)) ∧
        Decimal.ofText? t = none ∧ Special.ofText? t = some (.infinity negative) := by
  obtain ⟨v, hs, ht⟩ := h
  obtain ⟨x, finite, rfl⟩ | ⟨negative, none, infinite, rfl⟩ := value?_cases hs
  · obtain ⟨y, finite', same⟩ | ⟨_, _, _, other⟩ := value?_cases ht
    · refine .inl ⟨x, y, finite, finite', ?_⟩
      rw [← toRat_canonical x, Value.finite.inj same, toRat_canonical]
    · cases other
  · obtain ⟨_, _, other⟩ | ⟨_, none', infinite', same⟩ := value?_cases ht
    · cases other
    · cases same
      exact .inr ⟨negative, ⟨none, ofText?_of_special infinite⟩, none',
        ofText?_of_special infinite'⟩

/-- Numbers of one value that were written out are spellings of the same number. -/
theorem respells_of_shows {p q : ℚ} {x y : Decimal} (hs : Shows s p x) (ht : Shows t q y)
    (same : p = q) : Respells s t := by
  have canonical : x.writtenOut.canonical = y.writtenOut.canonical := by
    refine eq_of_beq (sameValue_iff.2 ?_)
    rw [toRat_writtenOut, toRat_writtenOut, hs.value, ht.value, same]
  refine ⟨.finite x.writtenOut.canonical, ?_, ?_⟩
  · rw [value?, hs.ofText?]
  · rw [value?, ht.ofText?, canonical]

/-- Two numbers of one value are rendered as texts that respell each other. -/
theorem respells_of_render {x y : Decimal} {m n : Nat} (fits : Fits x.toRat)
    (same : x.toRat = y.toRat) (hs : x.render m = .ok s) (ht : y.render n = .ok t) :
    Respells s t := by
  obtain ⟨_, shows⟩ := shows_render fits hs
  obtain ⟨_, shows'⟩ := shows_render (same ▸ fits) ht
  exact respells_of_shows shows shows' same

/-- An infinity is rendered as itself. -/
theorem respells_infinity {negative : Bool} {m n : Nat}
    (hs : (Special.infinity negative).render m = .ok s)
    (ht : (Special.infinity negative).render n = .ok t) : Respells s t := by
  have plain : ∀ {k : Nat} {text : String}, (Special.infinity negative).render k = .ok text →
      text = (Special.infinity negative).plain := by
    intro k text h
    rw [Special.render] at h
    split at h
    · cases h
    · cases h
      rfl
  rw [plain hs, plain ht]
  cases negative
  · exact ⟨.infinite false, rfl, rfl⟩
  · exact ⟨.infinite true, rfl, rfl⟩

/-! ## Signs -/

/-- Two results of one outcome have one value. -/
theorem toRat_eq_of_outcome {x y : Except Signal Decimal} (same : outcome x = outcome y)
    {r r' : Decimal} (hx : x = .ok r) (hy : y = .ok r') : r.toRat = r'.toRat := by
  rw [hx, hy] at same
  exact Option.some.inj same

/-- Spellings of one number under a sign are spellings of one number. -/
theorem Respells.signed {op : Operator} (h : Respells a c) (ha : signed op a = .ok s)
    (hc : signed op c = .ok t) : Respells s t := by
  -- both results have one value, and what is written out spells it
  have rendered : ∀ {work work' : Work} {x y : Except Signal Decimal} {m n : Nat},
      (∀ r, x = .ok r → r.IsResult) → outcome x = outcome y →
      (work.result x >>= fun r => written r m) = .ok s →
      (work'.result y >>= fun r => written r n) = .ok t → Respells s t := by
    intro work work' x y m n results same hs ht
    obtain ⟨r, computed, hs⟩ := ok_of_bind hs
    obtain ⟨r', computed', ht⟩ := ok_of_bind ht
    have computed := Work.ok_of_result computed
    have value := toRat_eq_of_outcome same computed (Work.ok_of_result computed')
    exact respells_of_render (results r computed).fits value (ok_of_written hs) (ok_of_written ht)
  unfold Numeral.signed at ha hc
  obtain ⟨x, y, finite, finite', same⟩ | ⟨negative, ⟨none, infinite⟩, none', infinite'⟩ := h.cases
  · simp only [finite] at ha
    simp only [finite'] at hc
    cases op with
    | plus =>
      have signs : outcome x.pos = outcome y.pos := by rw [outcome_pos, outcome_pos, same]
      exact rendered (fun r => isResult_rounded) signs ha hc
    | minus =>
      have signs : outcome x.neg = outcome y.neg := by rw [outcome_neg, outcome_neg, same]
      exact rendered (fun r => isResult_rounded) signs ha hc
    | _ => cases ha
  · simp only [none, special, infinite] at ha
    simp only [none', special, infinite'] at hc
    cases op with
    | plus => exact respells_infinity (Work.ok_of_result ha) (Work.ok_of_result hc)
    | minus => exact respells_infinity (Work.ok_of_result ha) (Work.ok_of_result hc)
    | _ => cases ha

/-! ## Operations -/

/-- What an operation computes from finite numbers depends on their values. -/
theorem outcome_operation {op : Operator} {compute : Decimal → Decimal → Except Signal Decimal}
    (operation : operation? op = some compute) {x y x' y' : Decimal} (left : x.toRat = x'.toRat)
    (right : y.toRat = y'.toRat) : outcome (compute x y) = outcome (compute x' y') := by
  cases op with
  | plus =>
    cases operation
    rw [outcome_add, outcome_add, left, right]
  | minus =>
    cases operation
    rw [outcome_sub, outcome_sub, left, right]
  | times =>
    cases operation
    rw [outcome_mul, outcome_mul, left, right]
  | juxtaposed =>
    cases operation
    rw [outcome_mul, outcome_mul, left, right]
  | divide =>
    cases operation
    rw [outcome_div, outcome_div, left, right]
  | power =>
    cases operation
    rw [pow_congr left right]
  | equals => cases operation

/-- A number and an infinity: only quotients and powers are numbers. -/
theorem combinedSpecial?_of_finite {x : Decimal} {negative : Bool} (op : Operator)
    (finite : Decimal.ofText? a = some x)
    (infinite : Special.ofText? b = some (.infinity negative))
    (notFinite : Decimal.ofText? b = none) :
    combinedSpecial? op a b =
      match op with
      | .divide => some (ofNat false 0)
      | .power => Special.powerToInfinity? x negative
      | _ => none := by
  unfold combinedSpecial?
  rw [finite, infinite, notFinite]
  cases op <;> rfl

/-- An infinity and a number: only powers are numbers. -/
theorem combinedSpecial?_of_infinity {x : Decimal} {negative : Bool} (op : Operator)
    (infinite : Special.ofText? a = some (.infinity negative))
    (notFinite : Decimal.ofText? a = none)
    (finite : Decimal.ofText? b = some x) :
    combinedSpecial? op a b =
      match op with
      | .power => Special.powerOfInfinity? negative x
      | _ => none := by
  unfold combinedSpecial?
  rw [finite, infinite, notFinite]
  cases op <;> rfl

/-- Two infinities: only one of their powers is a number. -/
theorem combinedSpecial?_of_infinities {m n : Bool} (op : Operator)
    (infinite : Special.ofText? a = some (.infinity m)) (notFinite : Decimal.ofText? a = none)
    (infinite' : Special.ofText? b = some (.infinity n)) (notFinite' : Decimal.ofText? b = none) :
    combinedSpecial? op a b =
      if op = .power ∧ m = false ∧ n = true then some (ofNat false 0) else none := by
  unfold combinedSpecial?
  rw [infinite, notFinite, infinite', notFinite']
  cases op <;> cases m <;> cases n <;> rfl

/-- What an operation computes from numerals depends on their values. -/
theorem combinedValue?_congr {op : Operator}
    {compute : Decimal → Decimal → Except Signal Decimal} (operation : operation? op = some compute)
    (left : Respells a c) (right : Respells b d) :
    (combinedValue? op compute a b).map toRat = (combinedValue? op compute c d).map toRat := by
  obtain ⟨x, x', fx, fx', same⟩ | ⟨m, ⟨nx, ix⟩, nx', ix'⟩ := left.cases
  all_goals obtain ⟨y, y', fy, fy', same'⟩ | ⟨n, ⟨ny, iy⟩, ny', iy'⟩ := right.cases
  · rw [combinedValue?, combinedValue?, fx, fx', fy, fy']
    exact outcome_operation operation same same'
  · rw [combinedValue?, combinedValue?, fx, fx', ny, ny']
    dsimp only
    rw [combinedSpecial?_of_finite op fx iy ny, combinedSpecial?_of_finite op fx' iy' ny']
    simp only [Special.powerToInfinity?_congr same]
  · rw [combinedValue?, combinedValue?, nx, nx', fy, fy']
    dsimp only
    rw [combinedSpecial?_of_infinity op ix nx fy, combinedSpecial?_of_infinity op ix' nx' fy']
    simp only [Special.powerOfInfinity?_congr same']
  · rw [combinedValue?, combinedValue?, nx, nx', ny, ny']
    dsimp only
    rw [combinedSpecial?_of_infinities op ix nx iy ny,
      combinedSpecial?_of_infinities op ix' nx' iy' ny']

/-- What an operation computes from numerals with values fits. -/
theorem fits_combinedValue? {op : Operator}
    {compute : Decimal → Decimal → Except Signal Decimal} (operation : operation? op = some compute)
    (left : Respells a c) (right : Respells b d) {r : Decimal}
    (h : combinedValue? op compute a b = some r) : Fits r.toRat := by
  obtain ⟨x, -, fx, -⟩ | ⟨m, ⟨nx, ix⟩, -⟩ := left.cases
  all_goals obtain ⟨y, -, fy, -⟩ | ⟨n, ⟨ny, iy⟩, -⟩ := right.cases
  · rw [combinedValue?, fx, fy] at h
    dsimp only at h
    cases computed : compute x y with
    | error signal =>
      rw [computed] at h
      cases h
    | ok z =>
      rw [computed] at h
      cases h
      exact (isResult_operation operation computed).fits
  · rw [combinedValue?, fx, ny] at h
    dsimp only at h
    rw [combinedSpecial?_of_finite op fx iy ny] at h
    -- with an infinity among the operands, the only finite results are zero and one
    refine Special.fits_zero_or_one ?_
    cases op with
    | divide => exact .inl (Option.some.inj h).symm
    | power => exact Special.eq_of_powerToInfinity? h
    | _ => cases h
  · rw [combinedValue?, nx, fy] at h
    dsimp only at h
    rw [combinedSpecial?_of_infinity op ix nx fy] at h
    refine Special.fits_zero_or_one ?_
    cases op with
    | power => exact Special.eq_of_powerOfInfinity? h
    | _ => cases h
  · rw [combinedValue?, nx, ny] at h
    dsimp only at h
    rw [combinedSpecial?_of_infinities op ix nx iy ny] at h
    refine Special.fits_zero_or_one ?_
    split at h
    · exact .inl (Option.some.inj h).symm
    · cases h

/-- A product is computed alike whether its sign is written or not. -/
theorem operation?_explicit (op : Operator) : operation? op.explicit = operation? op := by
  cases op <;> rfl

/-- So is its value. -/
theorem combinedValue?_explicit (op : Operator)
    (compute : Decimal → Decimal → Except Signal Decimal) (a b : String) :
    combinedValue? op.explicit compute a b = combinedValue? op compute a b := by
  unfold combinedValue? combinedSpecial?
  generalize Decimal.ofText? a = x
  generalize Decimal.ofText? b = y
  cases op <;> rfl

/-- What is computed is written out. -/
theorem ok_of_combined {op : Operator} {compute : Decimal → Decimal → Except Signal Decimal}
    (operation : operation? op = some compute) {result : Option String}
    (h : Numeral.combined op a b = .ok result) :
    (combinedValue? op compute a b = none ∧ result = none) ∨
      ∃ r digits text, combinedValue? op compute a b = some r ∧ r.render digits = .ok text ∧
        result = some text := by
  rw [Numeral.combined, operation] at h
  dsimp only at h
  cases computed : combinedValue? op compute a b with
  | none =>
    rw [computed] at h
    exact .inl ⟨rfl, (ok_of_pure h).symm⟩
  | some r =>
    rw [computed] at h
    obtain ⟨text, rendered, h⟩ := ok_of_bind h
    exact .inr ⟨r, _, text, rfl, ok_of_written rendered, (ok_of_pure h).symm⟩

/-- Operations of one kind on spellings of the same numbers are both undefined, or give spellings of
the same number. -/
theorem Respells.combined {op op' : Operator} (alike : op.explicit = op'.explicit)
    (left : Respells a c) (right : Respells b d) {result result' : Option String}
    (h : combined op a b = .ok result) (h' : combined op' c d = .ok result') :
    (result = none ∧ result' = none) ∨
      ∃ s t, result = some s ∧ result' = some t ∧ Respells s t := by
  have same : operation? op = operation? op' := by
    rw [← operation?_explicit op, alike, operation?_explicit]
  cases operation : operation? op with
  | none =>
    rw [Numeral.combined, operation] at h
    cases h
  | some compute =>
    have values : (combinedValue? op compute a b).map toRat =
        (combinedValue? op' compute c d).map toRat := by
      rw [← combinedValue?_explicit op', ← alike, combinedValue?_explicit]
      exact combinedValue?_congr operation left right
    obtain ⟨undefined, rfl⟩ | ⟨r, m, s, computed, rendered, rfl⟩ := ok_of_combined operation h
    all_goals
      obtain ⟨undefined', rfl⟩ | ⟨r', n, t, computed', rendered', rfl⟩ :=
        ok_of_combined (same ▸ operation) h'
    · exact .inl ⟨rfl, rfl⟩
    · rw [undefined, computed'] at values
      cases values
    · rw [computed, undefined'] at values
      cases values
    · rw [computed, computed'] at values
      have fits := fits_combinedValue? operation left right computed
      exact .inr ⟨s, t, rfl, rfl,
        respells_of_render fits (Option.some.inj values) rendered rendered'⟩

end Numeral

end TexAlgebra
