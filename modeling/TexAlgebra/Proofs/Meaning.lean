import TexAlgebra.Expr
import TexAlgebra.Numeral
import TexAlgebra.Proofs.Decimal.Value
/-!
# The meaning of expressions

An expression that is built from numbers, variables, signs and operators stands for a rational
number once its variables do. `Expr.value` computes this number by exact arithmetic. Nothing is
divided by zero, and only whole exponents count; every number to the zeroth power is one, zero
included. Expressions of any other kind, equations among them, have no value.
-/

namespace TexAlgebra

/-! ## Operators -/

/-- The power of `x` to `y`, if `y` is whole and no negative power of zero is asked for. -/
def ratPower? (x y : ℚ) : Option ℚ :=
  if y.den = 1 then if x = 0 ∧ y.num < 0 then none else some (x ^ y.num) else none

/-- A rational has every whole power, but zero has no negative one. -/
theorem ratPower?_intCast (x : ℚ) (n : ℤ) :
    ratPower? x n = if x = 0 ∧ n < 0 then none else some (x ^ n) := rfl

/-- Only whole powers of a rational are defined. -/
theorem ratPower?_eq_some {x y q : ℚ} (h : ratPower? x y = some q) :
    ∃ n : ℤ, y = n ∧ ¬ (x = 0 ∧ n < 0) ∧ q = x ^ n := by
  rw [ratPower?] at h
  split at h
  · next whole =>
    split at h
    · cases h
    · next defined =>
      cases h
      exact ⟨y.num, (Rat.den_eq_one_iff y).1 whole |>.symm, defined, rfl⟩
  · cases h

/-- What an operator makes of two rational numbers. -/
def Operator.onRat? : Operator → ℚ → ℚ → Option ℚ
  | plus, x, y => some (x + y)
  | minus, x, y => some (x - y)
  | times, x, y => some (x * y)
  | juxtaposed, x, y => some (x * y)
  | divide, x, y => if y = 0 then none else some (x / y)
  | power, x, y => ratPower? x y
  | equals, _, _ => none

/-- What a sign makes of a rational number. -/
def Operator.signOnRat? : Operator → ℚ → Option ℚ
  | plus, x => some x
  | minus, x => some (-x)
  | _, _ => none

/-! ## Numerals -/

/-- The rational number that a numeral spells. -/
def Numeral.rat? (text : String) : Option ℚ := (Decimal.ofText? text).map Decimal.toRat

/-! ## Expressions -/

/-- What a variable stands for, given the values of its subscripts if they all have one. -/
abbrev Meaning := Expr → Option (List ℚ) → Option ℚ

/-- The meaning in which a variable stands for the number that `ρ` assigns to it. -/
def Meaning.ofVariables (ρ : Expr → ℚ) : Meaning := fun x _ => some (ρ x)

/-- The meaning in which a variable stands for a number that depends on its name and on the values
of its subscripts. -/
def Meaning.ofNames (ρ : String → List ℚ → ℚ) : Meaning := fun x subscripts =>
  match x with
  | .var name _ _ => subscripts.map (ρ name)
  | _ => none

namespace Expr

mutual

/-- The rational number that an expression stands for when variables mean what `μ` says. -/
def value (μ : Meaning) : Expr → Option ℚ
  | number text _ => Numeral.rat? text
  | var name subscripts t => μ (var name subscripts t) (values μ subscripts)
  | unary op operand _ => (value μ operand).bind op.signOnRat?
  | binary op lhs rhs _ => (value μ lhs).bind fun x => (value μ rhs).bind (op.onRat? x)
  | _ => none

/-- The numbers that several expressions stand for, if each of them has a value. -/
def values (μ : Meaning) : List Expr → Option (List ℚ)
  | [] => some []
  | e :: es => (value μ e).bind fun x => (values μ es).map (x :: ·)

end

variable {μ : Meaning}

/-- A sign has a value if its operand has one to which it applies. -/
@[simp] theorem value_unary (op : Operator) (operand : Expr) (t : Option Token) :
    (unary op operand t).value μ = (operand.value μ).bind op.signOnRat? := rfl

/-- An operation has a value if its operands have such that it applies to. -/
@[simp] theorem value_binary (op : Operator) (lhs rhs : Expr) (t : Option Token) :
    (binary op lhs rhs t).value μ =
      (lhs.value μ).bind fun x => (rhs.value μ).bind (op.onRat? x) := rfl

/-- The value of a sign comes from the value of its operand. -/
theorem value_unary_eq_some {op : Operator} {operand : Expr} {t : Option Token} {q : ℚ} :
    (unary op operand t).value μ = some q ↔
      ∃ x, operand.value μ = some x ∧ op.signOnRat? x = some q := by
  rw [value_unary, Option.bind_eq_some_iff]

/-- The value of an operation comes from the values of its operands. -/
theorem value_binary_eq_some {op : Operator} {lhs rhs : Expr} {t : Option Token} {q : ℚ} :
    (binary op lhs rhs t).value μ = some q ↔
      ∃ x y, lhs.value μ = some x ∧ rhs.value μ = some y ∧ op.onRat? x y = some q := by
  rw [value_binary, Option.bind_eq_some_iff]
  constructor
  · rintro ⟨x, hx, h⟩
    obtain ⟨y, hy, h⟩ := Option.bind_eq_some_iff.1 h
    exact ⟨x, y, hx, hy, h⟩
  · rintro ⟨x, y, hx, hy, h⟩
    exact ⟨x, hx, Option.bind_eq_some_iff.2 ⟨y, hy, h⟩⟩

end Expr

end TexAlgebra
