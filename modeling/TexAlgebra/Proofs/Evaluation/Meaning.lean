import TexAlgebra.Proofs.Evaluation.Depth
import TexAlgebra.Proofs.Numeral
/-!
# Evaluation keeps the meaning

Evaluating an expression replaces bound variables by their values and computes what it can. As long
as nothing that is computed needs rounding, the result stands for the number that the expression
stands for, whatever the unbound variables mean: `Evaluation.value_evaluate`.
-/

namespace TexAlgebra

/-- The meaning in which a bound variable stands for the number of the expression that it is bound
to, and any other variable for the number that `ρ` assigns to it. -/
def Meaning.inEnvironment (env : Environment Expr) (ρ : Expr → ℚ) : Meaning := fun x _ =>
  match env.lookup x with
  | .ok (some bound) => bound.value (.ofVariables ρ)
  | .ok none => some (ρ x)
  | .error _ => none

namespace Evaluation

variable {s s' : Evaluator}

/-! ## What is computed -/

/-- A sign becomes part of a number and stays before anything else. -/
theorem signed_result {op : Operator} {operand v : Expr} {token : Option Token}
    (h : signed op operand token s = (.ok v, s')) :
    s = s' ∧ (v = .unary op operand token ∨
      ∃ text t result, operand = .number text t ∧ Numeral.signed op text = .ok result ∧
        v = .number result (token <|> t)) := by
  cases operand with
  | number text t =>
    obtain ⟨result, r, attempted, h⟩ := ok_of_bind h
    obtain ⟨computed, rfl⟩ := ok_of_attempt attempted
    obtain ⟨rfl, rfl⟩ := ok_of_pure h
    exact ⟨rfl, Or.inr ⟨text, t, result, rfl, computed, rfl⟩⟩
  | function form name parameters head body closed t => exact (ok_of_refuse h).elim
  | _ =>
    obtain ⟨rfl, rfl⟩ := ok_of_pure h
    exact ⟨rfl, Or.inl rfl⟩

/-- An operation is computed if its operands are numbers and the operation is defined for them. -/
theorem operation_result {op : Operator} {lhs rhs v : Expr} {token : Option Token}
    (h : operation op lhs rhs token s = (.ok v, s')) :
    s = s' ∧ (v = .binary op lhs rhs token ∨
      ∃ a t b u result, lhs = .number a t ∧ rhs = .number b u ∧
        Numeral.combined op a b = .ok (some result) ∧ v = .number result (token <|> t)) := by
  have kept : (pure (.binary op lhs rhs token) : Eval Expr) s = (.ok v, s') →
      s = s' ∧ v = .binary op lhs rhs token := by
    intro h
    obtain ⟨rfl, rfl⟩ := ok_of_pure h
    exact ⟨rfl, rfl⟩
  unfold operation at h
  cases functions : lhs.isFunction || rhs.isFunction with
  | true =>
    rw [functions] at h
    exact (ok_of_refuse h).elim
  | false =>
    rw [functions, if_neg Bool.false_ne_true] at h
    split at h
    · exact (kept h).imp_right Or.inl
    · obtain ⟨result, r, attempted, h⟩ := ok_of_bind h
      obtain ⟨computed, rfl⟩ := ok_of_attempt attempted
      cases result with
      | none => exact (kept h).imp_right Or.inl
      | some text =>
        obtain ⟨rfl, rfl⟩ := ok_of_pure h
        exact ⟨rfl, Or.inr ⟨_, _, _, _, text, rfl, rfl, computed, rfl⟩⟩
    · exact (kept h).imp_right Or.inl

/-- Whether nothing that is computed when an expression is evaluated needs rounding: wherever a
number gets a sign or two numbers are combined, the exact result fits. What the operands come to
does not depend on the room there is, so it is taken from where there is enough for any number of
levels. -/
def FoldsExactly (s : Evaluator) : Expr → Prop
  | .unary op operand _ =>
    FoldsExactly s operand ∧ ∀ text t,
      (evaluateWithin maxLevels .unbounded operand s).1 = .ok (.number text t) →
        Numeral.SignsExactly op text
  | .binary op lhs rhs _ =>
    FoldsExactly s lhs ∧ FoldsExactly s rhs ∧ ∀ a t b u,
      (evaluateWithin maxLevels .unbounded lhs s).1 = .ok (.number a t) →
        (evaluateWithin maxLevels .unbounded rhs s).1 = .ok (.number b u) →
          Numeral.CombinesExactly op a b
  | _ => True

/-! ## What it means -/

variable {ρ : Expr → ℚ}

/-- A sign that is computed exactly gives the value that the sign has on rationals. -/
theorem value_signed {op : Operator} {operand v : Expr} {token : Option Token} {x q : ℚ}
    {μ : Meaning} (h : signed op operand token s = (.ok v, s'))
    (means : operand.value μ = some x) (exactly : op.signOnRat? x = some q)
    (fits : ∀ text t, operand = .number text t → Numeral.SignsExactly op text) :
    v.value μ = some q := by
  obtain ⟨-, rfl | ⟨text, t, result, rfl, computed, rfl⟩⟩ := signed_result h
  · exact Expr.value_unary_eq_some.2 ⟨x, means, exactly⟩
  · obtain ⟨shown, shows⟩ :=
      Numeral.shows_signed computed means exactly
        (fits text t rfl result x q computed means exactly)
    exact shows.rat?

/-- An operation that is computed exactly gives the value that it has on rationals. -/
theorem value_operation {op : Operator} {lhs rhs v : Expr} {token : Option Token} {x y q : ℚ}
    {μ : Meaning} (h : operation op lhs rhs token s = (.ok v, s'))
    (means_l : lhs.value μ = some x) (means_r : rhs.value μ = some y)
    (exactly : op.onRat? x y = some q)
    (fits : ∀ a t b u, lhs = .number a t → rhs = .number b u → Numeral.CombinesExactly op a b) :
    v.value μ = some q := by
  obtain ⟨-, rfl | ⟨a, t, b, u, result, rfl, rfl, computed, rfl⟩⟩ := operation_result h
  · exact Expr.value_binary_eq_some.2 ⟨x, y, means_l, means_r, exactly⟩
  · obtain ⟨shown, shows⟩ := Numeral.shows_combined computed means_l means_r exactly
      (fits a t b u rfl rfl result x y q computed means_l means_r exactly)
    exact shows.rat?

/-- An expression that has a value changes no bindings when it is evaluated, and the result has the
same value. -/
theorem value_evaluateWithin (e : Expr) {v : Expr} {s s' : Evaluator} {q : ℚ}
    (h : evaluateWithin maxLevels .unbounded e s = (.ok v, s')) (exactly : FoldsExactly s e)
    (means : e.value (.inEnvironment s.environment ρ) = some q) :
    s = s' ∧ v.value (.ofVariables ρ) = some q := by
  -- a part with a value leaves the state as it is, so the next part is evaluated in the same one
  cases e with
  | number text t =>
    obtain ⟨rfl, rfl⟩ := ok_of_pure h
    exact ⟨rfl, means⟩
  | var name subscripts t =>
    obtain ⟨found, r, looked, h⟩ := ok_of_bind h
    obtain ⟨bound, rfl⟩ := ok_of_lookup looked
    obtain ⟨rfl, rfl⟩ := ok_of_pure h
    refine ⟨rfl, ?_⟩
    rw [Expr.value, Meaning.inEnvironment, bound] at means
    cases found with
    | none => exact means
    | some value => exact means
  | unary op operand t =>
    obtain ⟨x, value, sign⟩ := Expr.value_unary_eq_some.1 means
    obtain ⟨w, r, evaluated, h⟩ := ok_of_bind h
    obtain ⟨rfl, value'⟩ := value_evaluateWithin operand evaluated exactly.1 value
    refine ⟨(signed_result h).1, value_signed h value' sign fun text u number => ?_⟩
    subst number
    exact exactly.2 text u (congrArg Prod.fst evaluated)
  | binary op lhs rhs t =>
    obtain ⟨x, y, value_l, value_r, result⟩ := Expr.value_binary_eq_some.1 means
    obtain ⟨w, r, evaluated_l, h⟩ := ok_of_bind h
    obtain ⟨rfl, value_l'⟩ := value_evaluateWithin lhs evaluated_l exactly.1 value_l
    obtain ⟨z, r, evaluated_r, h⟩ := ok_of_bind h
    obtain ⟨rfl, value_r'⟩ := value_evaluateWithin rhs evaluated_r exactly.2.1 value_r
    refine ⟨(operation_result h).1, value_operation h value_l' value_r' result ?_⟩
    intro a u b u' number number'
    subst number number'
    exact exactly.2.2 a u b u' (congrArg Prod.fst evaluated_l) (congrArg Prod.fst evaluated_r)
  | _ => cases means

/-- What an expression evaluates to stands for the same number as the expression, given that nothing
that was computed needed rounding. Bound variables stand for what they are bound to, and unbound
ones for anything. -/
theorem value_evaluate {e v : Expr} {s s' : Evaluator} {q : ℚ} (h : evaluate e s = (.ok v, s'))
    (exactly : FoldsExactly s e) (means : e.value (.inEnvironment s.environment ρ) = some q) :
    v.value (.ofVariables ρ) = some q := by
  obtain ⟨evaluated, -⟩ := ok_of_evaluate h
  exact (value_evaluateWithin e evaluated exactly means).2

/-- Where `x` is bound to `2` and `y` to `z`, the expression `(x + 1.50)y` evaluates to `3.50z`, and
both stand for `49 / 2` if `z` stands for `7`. -/
theorem value_evaluate_product :
    (Expr.binary .juxtaposed (.number "3.50" none) (.var "z" [] none) none).value
      (.ofVariables fun _ => 7) = some (49 / 2) := by
  let x : Expr := .var "x" [] none
  let y : Expr := .var "y" [] none
  let s : Evaluator := ⟨⟨[(x, .number "2" none), (y, .var "z" [] none)], []⟩, 0⟩
  let sum : Expr := .binary .plus x (.number "1.50" none) none
  have two : Numeral.rat? "2" = some 2 := by
    rw [Numeral.rat?, show Decimal.ofText? "2" = some ⟨false, 2, 0⟩ from rfl]
    norm_num [Decimal.toRat]
  have fraction : Numeral.rat? "1.50" = some (3 / 2) := by
    rw [Numeral.rat?, show Decimal.ofText? "1.50" = some ⟨false, 150, -2⟩ from rfl]
    norm_num [Decimal.toRat]
  have means : sum.value (.inEnvironment s.environment fun _ => 7) = some (7 / 2) :=
    Expr.value_binary_eq_some.2 ⟨2, 3 / 2, two, fraction, by norm_num [Operator.onRat?]⟩
  -- the sum is exact: it has two digits
  have fits : Numeral.CombinesExactly .plus "2" "1.50" := by
    intro result a b q _ ha hb exactly
    rw [two, Option.some_inj] at ha
    rw [fraction, Option.some_inj] at hb
    subst ha hb
    cases exactly
    have written : Decimal.IsResult ⟨false, 35, -1⟩ := ⟨by decide, by decide, by decide⟩
    have value : Decimal.toRat ⟨false, 35, -1⟩ = 2 + 3 / 2 := by norm_num [Decimal.toRat]
    exact value ▸ written.fits
  have exactly : FoldsExactly s (.binary .juxtaposed sum y none) := by
    refine ⟨⟨trivial, trivial, ?_⟩, trivial, ?_⟩
    · intro a t b u evaluated evaluated'
      cases evaluated
      cases evaluated'
      exact fits
    · intro a t b u _ evaluated
      cases evaluated
  exact @value_evaluate _ (.binary .juxtaposed sum y none) _ s s _ rfl exactly
    (Expr.value_binary_eq_some.2 ⟨7 / 2, 7, means, rfl, by norm_num [Operator.onRat?]⟩)

end Evaluation

end TexAlgebra
