import TexAlgebra.Proofs.Expansion.Passes
import TexAlgebra.Proofs.Numeral
/-!
# Expansion keeps the meaning

Every rule of expansion leaves the number that an expression stands for as it is, given that the
numerals of the expression are short: else a lowered exponent might have to be rounded. The rules
write no long numerals either, so they can be applied again to what they produced. What holds for
one rule thus holds for a full expansion and for a single step: `Expr.value_expandBy`.
-/

namespace TexAlgebra

open Decimal

namespace Expr

/-! ## Short numerals -/

mutual

/-- Whether all numerals of an expression are short, those in subscripts included. -/
def IsShort : Expr → Prop
  | number text _ => Numeral.IsShort text
  | var _ subscripts _ => AreShort subscripts
  | unary _ operand _ => IsShort operand
  | binary _ lhs rhs _ => IsShort lhs ∧ IsShort rhs
  | _ => True

/-- Whether all numerals of several expressions are short. -/
def AreShort : List Expr → Prop
  | [] => True
  | e :: es => IsShort e ∧ AreShort es

end

variable {ρ : String → List ℚ → ℚ}

/-- Whether `r` may replace `e`: if the numerals of `e` are short and `e` has a value, this holds
for `r` as well, and the values are the same. -/
def Keeps (ρ : String → List ℚ → ℚ) (e r : Expr) : Prop :=
  e.IsShort → ∀ q, e.value (.ofNames ρ) = some q → r.IsShort ∧ r.value (.ofNames ρ) = some q

/-! ## Powers -/

/-- One is short. -/
theorem isShort_one (t : Option Token) : (one t).IsShort :=
  ⟨⟨false, 1, 0⟩, rfl, by decide, by decide⟩

/-- One has the value one. -/
theorem value_one {μ : Meaning} (t : Option Token) : (one t).value μ = some 1 := by
  show (Decimal.ofText? "1").map toRat = some 1
  rw [show Decimal.ofText? "1" = some Decimal.one from rfl, Option.map_some, toRat_one]

/-- What a power with a value is made of. -/
theorem power_parts {base : Expr} {exponent : String} {t token : Option Token} {q : ℚ}
    (means : (binary .power base (number exponent t) token).value (.ofNames ρ) = some q) :
    ∃ x : ℚ, ∃ n : ℤ, base.value (.ofNames ρ) = some x ∧ Numeral.rat? exponent = some (n : ℚ) ∧
      ¬ (x = 0 ∧ n < 0) ∧ q = x ^ n := by
  obtain ⟨x, y, value_base, value_exponent, power⟩ := value_binary_eq_some.1 means
  obtain ⟨n, rfl, defined, rfl⟩ := ratPower?_eq_some power
  exact ⟨x, n, value_base, value_exponent, defined, rfl⟩

/-- A power to a whole number has the power of the value. -/
theorem value_power {base : Expr} {exponent : String} {t token : Option Token} {x : ℚ} {n : ℤ}
    (value_base : base.value (.ofNames ρ) = some x)
    (value_exponent : Numeral.rat? exponent = some (n : ℚ)) (defined : ¬ (x = 0 ∧ n < 0)) :
    (binary .power base (number exponent t) token).value (.ofNames ρ) = some (x ^ n) := by
  refine value_binary_eq_some.2 ⟨x, n, value_base, value_exponent, ?_⟩
  rw [Operator.onRat?, ratPower?_intCast, if_neg defined]

section

variable {base : Expr} {exponent : String} {t token : Option Token} {d : Decimal}

/-- One has the value of a power to zero. -/
theorem keeps_power_zero (read : Decimal.ofText? exponent = some d) (zero : d.toRat = 0) :
    Keeps ρ (binary .power base (number exponent t) token) (one token) := by
  intro _ q means
  obtain ⟨x, n, -, value_exponent, -, rfl⟩ := power_parts means
  rw [Numeral.rat?, read, Option.map_some, zero, Option.some_inj] at value_exponent
  have : n = 0 := by exact_mod_cast value_exponent.symm
  rw [this, zpow_zero]
  exact ⟨isShort_one token, value_one token⟩

/-- The base has the value of a power to one. -/
theorem keeps_power_one (read : Decimal.ofText? exponent = some d) (one : d.toRat = 1) :
    Keeps ρ (binary .power base (number exponent t) token) base := by
  rintro ⟨short, -⟩ q means
  obtain ⟨x, n, value_base, value_exponent, -, rfl⟩ := power_parts means
  rw [Numeral.rat?, read, Option.map_some, one, Option.some_inj] at value_exponent
  have : n = 1 := by exact_mod_cast value_exponent.symm
  rw [this, zpow_one]
  exact ⟨short, value_base⟩

/-- The product of the base with itself has the value of a power to two. -/
theorem keeps_power_two (read : Decimal.ofText? exponent = some d) (two : d.toRat = 2) :
    Keeps ρ (binary .power base (number exponent t) token)
      (binary .juxtaposed base base token) := by
  rintro ⟨short, -⟩ q means
  obtain ⟨x, n, value_base, value_exponent, -, rfl⟩ := power_parts means
  rw [Numeral.rat?, read, Option.map_some, two, Option.some_inj] at value_exponent
  have : n = 2 := by exact_mod_cast value_exponent.symm
  refine ⟨⟨short, short⟩, value_binary_eq_some.2 ⟨x, x, value_base, value_base, ?_⟩⟩
  rw [this, Operator.onRat?, ← zpow_two]

/-- A power with a negative exponent is the inverse of the power with the opposite exponent. -/
theorem keeps_power_inverse {positive : String} (read : Decimal.ofText? exponent = some d)
    (negative : d.toRat < 0) (signed : Numeral.signed .minus exponent = .ok positive) :
    Keeps ρ (binary .power base (number exponent t) token)
      (binary .divide (one t) (binary .power base (number positive t) token) token) := by
  rintro ⟨short, short_exponent⟩ q means
  obtain ⟨x, n, value_base, value_exponent, defined, rfl⟩ := power_parts means
  have below : n < 0 := by
    rw [Numeral.rat?, read, Option.map_some, Option.some_inj] at value_exponent
    rw [value_exponent] at negative
    exact_mod_cast negative
  -- the power has a value, so its base is not zero
  have invertible : x ≠ 0 := fun zero => defined ⟨zero, below⟩
  obtain ⟨fits, small⟩ := short_exponent.bounds value_exponent
  have sign : Operator.minus.signOnRat? n = some (-(n : ℚ)) := rfl
  obtain ⟨shown, shows⟩ := Numeral.shows_signed signed value_exponent sign (fits_neg fits)
  have value_positive : Numeral.rat? positive = some ((-n : ℤ) : ℚ) := by
    rw [Int.cast_neg]
    exact shows.rat?
  have short_positive := Numeral.isShort_of_shows shows ((abs_neg (n : ℚ)).trans_lt small)
  refine ⟨⟨isShort_one t, short, short_positive⟩, value_binary_eq_some.2 ⟨1, x ^ (-n), ?_⟩⟩
  refine ⟨value_one t, value_power value_base value_positive (by omega), ?_⟩
  rw [Operator.onRat?, if_neg (zpow_ne_zero _ invertible), zpow_neg, one_div, inv_inv]

/-- A power with a positive exponent is the base times the power with the exponent less one. -/
theorem keeps_power_lowered {lowered : String} (read : Decimal.ofText? exponent = some d)
    (positive : 0 < d.toRat)
    (combined : Numeral.combined .minus exponent "1" = .ok (some lowered)) :
    Keeps ρ (binary .power base (number exponent t) token)
      (binary .juxtaposed base (binary .power base (number lowered t) token) token) := by
  rintro ⟨short, short_exponent⟩ q means
  obtain ⟨x, n, value_base, value_exponent, -, rfl⟩ := power_parts means
  have above : 0 < n := by
    rw [Numeral.rat?, read, Option.map_some, Option.some_inj] at value_exponent
    rw [value_exponent] at positive
    exact_mod_cast positive
  obtain ⟨-, small⟩ := short_exponent.bounds value_exponent
  -- the lowered exponent is whole and short, so nothing is rounded
  have few : |n - 1| < tenTo precision := by
    have whole : |n| < tenTo precision := by exact_mod_cast small
    rw [abs_of_pos above] at whole
    rw [abs_of_nonneg (by omega)]
    omega
  have difference : Operator.minus.onRat? n 1 = some ((n - 1 : ℤ) : ℚ) := by
    rw [Operator.onRat?, Int.cast_sub, Int.cast_one]
  have unit : Numeral.rat? "1" = some 1 := @value_one (.ofNames ρ) none
  obtain ⟨shown, shows⟩ :=
    Numeral.shows_combined combined value_exponent unit difference (fits_intCast few)
  have short_lowered := Numeral.isShort_of_shows shows (by exact_mod_cast few)
  refine ⟨⟨short, short, short_lowered⟩, value_binary_eq_some.2 ⟨x, x ^ (n - 1), value_base, ?_⟩⟩
  refine ⟨value_power value_base shows.rat? (by omega), ?_⟩
  obtain ⟨k, rfl⟩ : ∃ k : Nat, n = k + 1 := ⟨(n - 1).toNat, by omega⟩
  rw [Operator.onRat?, add_sub_cancel_right, zpow_natCast, ← Nat.cast_succ, zpow_natCast, pow_succ']

end

/-- A contracted power keeps its value. -/
theorem keeps_contractPower? {base r : Expr} {exponent : String} {t token : Option Token}
    (h : contractPower? base exponent t token = .ok (some r)) :
    Keeps ρ (binary .power base (number exponent t) token) r := by
  rw [contractPower?] at h
  obtain ⟨d, found, h⟩ := ok_of_bind h
  have read : Decimal.ofText? exponent = some d := by
    unfold Numeral.value at found
    split at found
    · cases found
      assumption
    · cases found
  split at h
  · next zero =>
    cases h
    exact keeps_power_zero read ((isZero_iff d).1 zero)
  next nonzero =>
  rw [isZero_iff] at nonzero
  split at h
  · next negative =>
    obtain ⟨positive, signed, h⟩ := ok_of_bind h
    cases h
    exact keeps_power_inverse read (lt_of_le_of_ne (toRat_nonpos negative) nonzero) signed
  next positive =>
  split at h
  · next one =>
    cases h
    exact keeps_power_one read ((toRat_eq_of_sameValue one).trans (by simp))
  split at h
  · next two =>
    cases h
    exact keeps_power_two read ((toRat_eq_of_sameValue two).trans (by simp))
  split at h
  · cases h
  obtain ⟨lowered, combined, h⟩ := ok_of_bind h
  cases lowered with
  | none => cases h
  | some lowered =>
    cases h
    have above := lt_of_le_of_ne (toRat_nonneg (by simpa using positive)) (Ne.symm nonzero)
    exact keeps_power_lowered read above combined

/-! ## Products -/

/-- Sums and differences of multiples are multiples of sums and differences. -/
theorem onRat?_mul_mul {op : Operator} (sum : op = .plus ∨ op = .minus) {x y s : ℚ}
    (added : op.onRat? x y = some s) (z : ℚ) : op.onRat? (x * z) (y * z) = some (s * z) := by
  rcases sum with rfl | rfl
  · cases added
    rw [Operator.onRat?, add_mul]
  · cases added
    rw [Operator.onRat?, sub_mul]

/-- A product has the product of the values. -/
theorem onRat?_product {product : Operator} (times : product = .times ∨ product = .juxtaposed)
    (x y : ℚ) : product.onRat? x y = some (x * y) := by
  rcases times with rfl | rfl <;> rfl

section

variable {op product : Operator} {a b c : Expr} {t token : Option Token}

/-- A sum on the left can be distributed. -/
theorem keeps_distributed_left (sum : op = .plus ∨ op = .minus)
    (times : product = .times ∨ product = .juxtaposed) :
    Keeps ρ (binary product (binary op a b t) c token)
      (contractProduct?.distributed token op a b (·, c)) := by
  rintro ⟨⟨short_a, short_b⟩, short_c⟩ q means
  refine ⟨⟨⟨short_a, short_c⟩, short_b, short_c⟩, ?_⟩
  obtain ⟨s, z, value_sum, value_c, multiplied⟩ := value_binary_eq_some.1 means
  obtain ⟨x, y, value_a, value_b, added⟩ := value_binary_eq_some.1 value_sum
  rw [onRat?_product times] at multiplied
  cases multiplied
  refine value_binary_eq_some.2 ⟨x * z, y * z, ?_, ?_, onRat?_mul_mul sum added z⟩
  · exact value_binary_eq_some.2 ⟨x, z, value_a, value_c, rfl⟩
  · exact value_binary_eq_some.2 ⟨y, z, value_b, value_c, rfl⟩

/-- A sum on the right can be distributed. -/
theorem keeps_distributed_right (sum : op = .plus ∨ op = .minus)
    (times : product = .times ∨ product = .juxtaposed) :
    Keeps ρ (binary product c (binary op a b t) token)
      (contractProduct?.distributed token op a b (c, ·)) := by
  rintro ⟨short_c, short_a, short_b⟩ q means
  refine ⟨⟨⟨short_c, short_a⟩, short_c, short_b⟩, ?_⟩
  obtain ⟨z, s, value_c, value_sum, multiplied⟩ := value_binary_eq_some.1 means
  obtain ⟨x, y, value_a, value_b, added⟩ := value_binary_eq_some.1 value_sum
  rw [onRat?_product times, mul_comm] at multiplied
  cases multiplied
  refine value_binary_eq_some.2 ⟨x * z, y * z, ?_, ?_, onRat?_mul_mul sum added z⟩
  · exact value_binary_eq_some.2 ⟨z, x, value_c, value_a, by rw [Operator.onRat?, mul_comm]⟩
  · exact value_binary_eq_some.2 ⟨z, y, value_c, value_b, by rw [Operator.onRat?, mul_comm]⟩

end

/-- A contracted product keeps its value. -/
theorem keeps_contractProduct? {lhs rhs r : Expr} {product : Operator} {token : Option Token}
    (times : product = .times ∨ product = .juxtaposed)
    (h : contractProduct? lhs rhs token = some r) :
    Keeps ρ (binary product lhs rhs token) r := by
  unfold contractProduct? at h
  split at h
  · cases h
    exact keeps_distributed_left (Or.inl rfl) times
  · cases h
    exact keeps_distributed_left (Or.inr rfl) times
  · cases h
    exact keeps_distributed_right (Or.inl rfl) times
  · cases h
    exact keeps_distributed_right (Or.inr rfl) times
  · cases h

/-! ## All rules -/

/-- A sign that is computed keeps its value. -/
theorem keeps_contractSign {op : Operator} {text result : String} {t token : Option Token}
    (h : Numeral.signed op text = .ok result) :
    Keeps ρ (unary op (number text t) token) (number result token) := by
  intro short q means
  obtain ⟨x, value_x, sign⟩ := value_unary_eq_some.1 means
  have size : Fits q ∧ |q| < tenTo precision := by
    obtain ⟨fits, small⟩ := Numeral.IsShort.bounds short value_x
    cases op with
    | plus =>
      cases sign
      exact ⟨fits, small⟩
    | minus =>
      cases sign
      exact ⟨fits_neg fits, (abs_neg x).trans_lt small⟩
    | _ => cases sign
  obtain ⟨shown, shows⟩ := Numeral.shows_signed h value_x sign size.1
  exact ⟨Numeral.isShort_of_shows shows size.2, shows.rat?⟩

/-- No rule changes the number that an expression stands for. -/
theorem keeps_contract? {e r : Expr} (h : contract? e = .ok (some r)) : Keeps ρ e r := by
  unfold contract? at h
  split at h
  · obtain ⟨result, signed, h⟩ := ok_of_bind h
    cases h
    exact keeps_contractSign signed
  · exact keeps_contractPower? h
  · cases found : contractProduct? _ _ _ <;> rw [found] at h <;> cases h
    exact keeps_contractProduct? (Or.inl rfl) found
  · cases found : contractProduct? _ _ _ <;> rw [found] at h <;> cases h
    exact keeps_contractProduct? (Or.inr rfl) found
  · cases h

/-! ## Parts -/

/-- Whether the items of `rs` may replace those of `es`. -/
def KeepsAll (ρ : String → List ℚ → ℚ) (es rs : List Expr) : Prop :=
  AreShort es → ∀ xs, values (.ofNames ρ) es = some xs →
    AreShort rs ∧ values (.ofNames ρ) rs = some xs

/-- Values are kept expression by expression. -/
theorem keepsAll_cons {e r : Expr} {es rs : List Expr} (first : Keeps ρ e r)
    (rest : KeepsAll ρ es rs) : KeepsAll ρ (e :: es) (r :: rs) := by
  rintro ⟨short, shorts⟩ xs means
  rw [values, Option.bind_eq_some_iff] at means
  obtain ⟨x, value, means⟩ := means
  obtain ⟨ys, values, rfl⟩ := Option.map_eq_some_iff.1 means
  obtain ⟨short, value⟩ := first short x value
  obtain ⟨shorts, values⟩ := rest shorts ys values
  refine ⟨⟨short, shorts⟩, ?_⟩
  rw [Expr.values, value, Option.bind_some, values, Option.map_some]

/-- A variable keeps its value if its subscripts do. -/
theorem keeps_var {name : String} {es rs : List Expr} {t : Option Token}
    (subscripts : List.Forall₂ (Keeps ρ) es rs) : Keeps ρ (var name es t) (var name rs t) := by
  have all : KeepsAll ρ es rs := by
    induction subscripts with
    | nil => exact fun shorts _ means => ⟨shorts, means⟩
    | cons first _ later => exact keepsAll_cons first later
  intro short q means
  obtain ⟨xs, values, assigned⟩ := Option.map_eq_some_iff.1 means
  obtain ⟨short, values⟩ := all short xs values
  exact ⟨short, Option.map_eq_some_iff.2 ⟨xs, values, assigned⟩⟩

/-- A sign keeps its value if its operand does. -/
theorem keeps_unary {op : Operator} {e r : Expr} {t : Option Token} (operand : Keeps ρ e r) :
    Keeps ρ (unary op e t) (unary op r t) := by
  intro short q means
  obtain ⟨x, value, sign⟩ := value_unary_eq_some.1 means
  obtain ⟨short, value⟩ := operand short x value
  exact ⟨short, value_unary_eq_some.2 ⟨x, value, sign⟩⟩

/-- An operation keeps its value if its operands do. -/
theorem keeps_binary {op : Operator} {a b c d : Expr} {t : Option Token} (left : Keeps ρ a c)
    (right : Keeps ρ b d) : Keeps ρ (binary op a b t) (binary op c d t) := by
  rintro ⟨short_a, short_b⟩ q means
  obtain ⟨x, y, value_a, value_b, result⟩ := value_binary_eq_some.1 means
  obtain ⟨short_c, value_c⟩ := left short_a x value_a
  obtain ⟨short_d, value_d⟩ := right short_b y value_b
  exact ⟨⟨short_c, short_d⟩, value_binary_eq_some.2 ⟨x, y, value_c, value_d, result⟩⟩

/-- What keeps the values of the parts keeps the value of the whole. -/
theorem isCongruence_keeps (ρ : String → List ℚ → ℚ) : IsCongruence (Keeps ρ) where
  refl _ short _ means := ⟨short, means⟩
  trans := by
    intro e r s first second short q means
    obtain ⟨short, means⟩ := first short q means
    exact second short q means
  var := keeps_var
  unary := keeps_unary
  binary := keeps_binary
  other := by
    intro e r kind short q means
    cases e with
    | number | var | unary | binary => cases kind
    | _ => cases means

/-- Expansion keeps the value. -/
theorem keeps_expandBy {extent : Expansion} {e r : Expr} (h : expandBy extent e = .ok r) :
    Keeps ρ e r :=
  (isCongruence_keeps ρ).of_expandBy (fun _ _ => keeps_contract?) h

/-- The expansion of an expression stands for the same number as the expression, whatever the
variables mean and whether it is a full expansion or a single step. -/
theorem value_expandBy {extent : Expansion} {e r : Expr} {q : ℚ} (short : e.IsShort)
    (h : expandBy extent e = .ok r) (means : e.value (.ofNames ρ) = some q) :
    r.value (.ofNames ρ) = some q :=
  (keeps_expandBy h short q means).2

/-- A single step takes `(x + 1) * 2` to an expression with its value, which is `8` where `x` stands
for `3`. -/
theorem value_expandBy_product : ∃ r,
    expandBy .once (binary .times (binary .plus (var "x" [] none) (number "1" none) none)
      (number "2" none) none) = .ok r ∧ r.value (.ofNames fun _ _ => 3) = some 8 := by
  let sum : Expr := binary .plus (var "x" [] none) (one none) none
  let product : Expr := binary .times sum (number "2" none) none
  have expanded : expandBy .once product =
      .ok (binary .plus (binary .juxtaposed (var "x" [] none) (number "2" none) none)
        (binary .juxtaposed (number "1" none) (number "2" none) none) none) := by
    rw [expandBy, step, visit.eq_def]
    rfl
  have short : product.IsShort :=
    ⟨⟨trivial, isShort_one none⟩, ⟨false, 2, 0⟩, rfl, by decide, by decide⟩
  have two : Numeral.rat? "2" = some 2 := by
    rw [Numeral.rat?, show Decimal.ofText? "2" = some ⟨false, 2, 0⟩ from rfl]
    norm_num [Decimal.toRat]
  have value_sum : sum.value (.ofNames fun _ _ => 3) = some 4 :=
    value_binary_eq_some.2 ⟨3, 1, rfl, value_one none, by norm_num [Operator.onRat?]⟩
  have means : product.value (.ofNames fun _ _ => 3) = some 8 :=
    value_binary_eq_some.2 ⟨4, 2, value_sum, two, by norm_num [Operator.onRat?]⟩
  exact ⟨_, expanded, value_expandBy short expanded means⟩

end Expr

end TexAlgebra
