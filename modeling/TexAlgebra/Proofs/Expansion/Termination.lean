import Mathlib.Algebra.Order.Floor.Semiring
import Mathlib.Data.Rat.Floor
import Mathlib.Tactic.Linarith
import TexAlgebra.Proofs.Expansion.Rules
/-!
# Expansion comes to an end

The rules of expansion copy whole parts of an expression, and a power can be written out only once
its exponent has become a number. So an expression can grow for a long time. What gets smaller with
every contraction is its `weight`. For a product it is the product of the weights of the factors,
and for a power it is a power again, which leaves room for all factors that the exponent can ever
ask for. How many these are is the `reach` of the exponent, and this does not grow.

Therefore contractions end in whatever order they are made, and so do both ways of expansion:
`Expr.contractions_end`.
-/

namespace TexAlgebra

/-! ## Weights of operations -/

/-- The weight of an operation, given the weights of its operands and the reach of the right one. -/
def Operator.weigh : Operator → (lhs rhs reach : ℕ) → ℕ
  | times, a, b, _ => a * b
  | juxtaposed, a, b, _ => a * b
  | power, a, b, n => b * (a + 1) ^ (n + 2)
  | _, a, b, _ => a + b + 1

namespace Operator

variable {op : Operator} {a a' b b' n n' : ℕ}

/-- A lighter left operand makes an operation lighter. -/
theorem weigh_lt_left (less : a' < a) (positive : 2 ≤ b) : op.weigh a' b n < op.weigh a b n := by
  cases op with
  | times | juxtaposed => exact Nat.mul_lt_mul_of_pos_right less (by omega)
  | power =>
    have smaller : (a' + 1) ^ (n + 2) < (a + 1) ^ (n + 2) :=
      Nat.pow_lt_pow_left (by omega) (by omega)
    exact Nat.mul_lt_mul_of_pos_left smaller (by omega)
  | _ =>
    simp only [weigh]
    omega

/-- A lighter right operand of no further reach makes an operation lighter. -/
theorem weigh_lt_right (less : b' < b) (le : n' ≤ n) (positive : 2 ≤ a) :
    op.weigh a b' n' < op.weigh a b n := by
  cases op with
  | times | juxtaposed => exact Nat.mul_lt_mul_of_pos_left less (by omega)
  | power =>
    calc b' * (a + 1) ^ (n' + 2)
        ≤ b' * (a + 1) ^ (n + 2) :=
          Nat.mul_le_mul_left b' (Nat.pow_le_pow_right (by omega) (by omega))
      _ < b * (a + 1) ^ (n + 2) := Nat.mul_lt_mul_of_pos_right less (by positivity)
  | _ =>
    simp only [weigh]
    omega

/-- An operation is heavier than its left operand. -/
theorem lt_weigh_left (left : 2 ≤ a) (right : 2 ≤ b) : a < op.weigh a b n := by
  cases op with
  | times | juxtaposed => exact lt_mul_of_one_lt_right (by omega) (by omega)
  | power =>
    calc a < a + 1 := Nat.lt_succ_self a
      _ ≤ (a + 1) ^ (n + 2) := Nat.le_self_pow (by omega) _
      _ ≤ b * (a + 1) ^ (n + 2) := Nat.le_mul_of_pos_left _ (by omega)
  | _ =>
    simp only [weigh]
    omega

/-- An operation is heavier than its right operand. -/
theorem lt_weigh_right (left : 2 ≤ a) (right : 2 ≤ b) : b < op.weigh a b n := by
  cases op with
  | times | juxtaposed => exact lt_mul_of_one_lt_left (by omega) (by omega)
  | power => exact lt_mul_of_one_lt_right (by omega) (Nat.one_lt_pow (by omega) (by omega))
  | _ =>
    simp only [weigh]
    omega

/-- A sum weighs a little more than its operands together. -/
theorem weigh_of_isSign (sign : op.isSign = true) : op.weigh a b n = a + b + 1 := by
  cases op with
  | plus | minus => rfl
  | _ => cases sign

/-- A product weighs as much as its operands multiplied. -/
theorem weigh_product (times : op = .times ∨ op = .juxtaposed) : op.weigh a b n = a * b := by
  rcases times with rfl | rfl <;> rfl

end Operator

namespace Expr

/-! ## Weights of expressions -/

/-- A bound for the number of factors that a power can be written out to if the expression is its
exponent. -/
def reach : Expr → ℕ
  | number text _ => ⌊|(Numeral.rat? text).getD 0|⌋₊
  | unary _ operand _ => reach operand
  | binary .power base _ _ => max 1 (reach base)
  | _ => 0

mutual

/-- The weight of an expression, which every contraction lowers. -/
def weight : Expr → ℕ
  | number text _ => if (Numeral.rat? text).getD 0 < 0 then 3 else 2
  | var _ subscripts _ => 2 + weights subscripts
  | unary _ operand _ => weight operand + 2
  | binary op lhs rhs _ => op.weigh (weight lhs) (weight rhs) (reach rhs)
  | group items _ => 2 + weights items
  | command _ arguments _ => 2 + weights arguments
  | block _ _ statements _ => 2 + weights statements
  | prototype name parameters _ => 2 + (weight name + weights parameters)
  | function _ name parameters _ body _ _ => 2 + (weight name + (weights parameters + weight body))
  | call callee arguments _ => 2 + (weight callee + weights arguments)
  | binding target value _ => 2 + (weight target + weight value)

/-- The sum of the weights of several expressions. -/
def weights : List Expr → ℕ
  | [] => 0
  | e :: es => weight e + weights es

end

variable {e r p q : Expr} {before after es : List Expr}

/-- Lists weigh what both of them do. -/
@[simp] theorem weights_append (es fs : List Expr) :
    weights (es ++ fs) = weights es + weights fs := by
  induction es with
  | nil => simp [weights]
  | cons e es ih => simp [weights, ih, Nat.add_assoc]

/-- What is neither a number nor an operation weighs more than its parts. -/
theorem weight_eq (h : e.isOperation = false) (other : e.isNumber = false) :
    e.weight = 2 + weights e.visited := by
  cases e <;> simp_all [weight, weights, visited, isOperation, isNumber]

/-- Only numbers and operations on them reach anywhere. -/
theorem reach_eq_zero (h : e.isOperation = false) (other : e.isNumber = false) : e.reach = 0 := by
  cases e <;> simp_all [reach, isOperation, isNumber]

/-- It does not depend on the parts whether an expression is an operation. -/
theorem isOperation_withVisited (e : Expr) (es : List Expr) :
    (e.withVisited es).isOperation = e.isOperation := by
  unfold withVisited
  split <;> rfl

/-- It does not depend on the parts whether an expression is a number. -/
theorem isNumber_withVisited (e : Expr) (es : List Expr) :
    (e.withVisited es).isNumber = e.isNumber := by
  unfold withVisited
  split <;> rfl

/-- Nothing weighs less than two. -/
theorem two_le_weight (e : Expr) : 2 ≤ e.weight := by
  induction e using visited_induction with
  | h e ih =>
    cases e with
    | number =>
      rw [weight]
      split <;> omega
    | unary =>
      rw [weight]
      omega
    | binary op lhs rhs t =>
      have left := ih lhs List.mem_cons_self
      have right := ih rhs (List.mem_cons_of_mem _ List.mem_cons_self)
      rw [weight]
      exact left.trans (Operator.lt_weigh_left left right).le
    | _ =>
      rw [weight]
      omega

/-- A list weighs as much as each of its expressions, or more. -/
theorem weight_le_weights (h : e ∈ es) : e.weight ≤ weights es := by
  induction es with
  | nil => cases h
  | cons e' es ih =>
    rw [weights]
    rcases List.mem_cons.1 h with rfl | h
    · omega
    · have := ih h
      omega

/-- A part is lighter than the whole. -/
theorem weight_lt_of_mem_visited (h : p ∈ e.visited) : p.weight < e.weight := by
  have other : e.isOperation = false → e.isNumber = false → p.weight < e.weight := by
    intro kind number
    rw [weight_eq kind number]
    have := weight_le_weights h
    omega
  cases e with
  | number => cases h
  | unary op operand t =>
    cases List.mem_singleton.1 h
    rw [weight]
    omega
  | binary op lhs rhs t =>
    have left := two_le_weight lhs
    have right := two_le_weight rhs
    rw [weight]
    rcases List.mem_cons.1 h with rfl | h
    · exact Operator.lt_weigh_left left right
    · cases List.mem_singleton.1 h
      exact Operator.lt_weigh_right left right
  | _ => exact other rfl rfl

/-! ## Contractions -/

/-- Whether an expression has less weight than another one and does not reach farther. -/
structure IsBelow (r e : Expr) : Prop where
  weight : r.weight < e.weight
  reach : r.reach ≤ e.reach

/-- An expression gets below itself if one of its parts does. -/
theorem IsBelow.part (found : e.visited = before ++ p :: after) (h : IsBelow q p) :
    IsBelow (e.withVisited (before ++ q :: after)) e := by
  have less := h.weight
  have le := h.reach
  -- where the root is no operation, the weights of the parts add up
  have other : e.isOperation = false → e.isNumber = false →
      IsBelow (e.withVisited (before ++ q :: after)) e := by
    intro kind number
    have kind' := (isOperation_withVisited e (before ++ q :: after)).trans kind
    have number' := (isNumber_withVisited e (before ++ q :: after)).trans number
    refine ⟨?_, by rw [reach_eq_zero kind' number', reach_eq_zero kind number]⟩
    rw [weight_eq kind' number', weight_eq kind number, visited_of_part found, found]
    simp only [weights_append, weights]
    omega
  cases e with
  | number => exact absurd found (by simp [visited])
  | unary op operand t =>
    obtain ⟨rfl, rfl, rfl⟩ := eq_of_singleton found
    exact ⟨Nat.add_lt_add_right less 2, le⟩
  | binary op lhs rhs t =>
    have left := two_le_weight lhs
    have right := two_le_weight rhs
    rcases eq_of_pair found with ⟨rfl, rfl, rfl⟩ | ⟨rfl, rfl, rfl⟩
    · refine ⟨Operator.weigh_lt_left less right, ?_⟩
      cases op with
      | power => exact max_le_max_left 1 le
      | _ => exact le_rfl
    · refine ⟨Operator.weigh_lt_right less le left, ?_⟩
      cases op <;> exact le_rfl
  | _ => exact other rfl rfl

/-- A number reaches as far as it is large. -/
theorem reach_number {text : String} {t : Option Token} {x : ℚ}
    (value : Numeral.rat? text = some x) : (number text t).reach = ⌊|x|⌋₊ := by
  rw [reach, value, Option.getD_some]

/-- A number that is not negative weighs two. -/
theorem weight_number {text : String} {t : Option Token} {x : ℚ}
    (value : Numeral.rat? text = some x) (nonneg : 0 ≤ x) : (number text t).weight = 2 := by
  rw [weight, value, Option.getD_some, if_neg nonneg.not_gt]

/-- A negative number weighs a little more, for its sign is taken off. -/
theorem weight_number_of_neg {text : String} {t : Option Token} {x : ℚ}
    (value : Numeral.rat? text = some x) (below : x < 0) : (number text t).weight = 3 := by
  rw [weight, value, Option.getD_some, if_pos below]

/-- The weight of a power with a number as its exponent. -/
theorem weight_power {base : Expr} {text : String} {t token : Option Token} {x : ℚ}
    (value : Numeral.rat? text = some x) :
    (binary .power base (number text t) token).weight =
      (number text t).weight * (base.weight + 1) ^ (⌊|x|⌋₊ + 2) := by
  rw [← reach_number value]
  rfl

/-- The weight of a whole power grows with its exponent. -/
theorem weight_power_natCast {base : Expr} {text : String} {t token : Option Token} {k : ℕ}
    (value : Numeral.rat? text = some (k : ℚ)) :
    (binary .power base (number text t) token).weight = 2 * (base.weight + 1) ^ (k + 2) := by
  rw [weight_power value, weight_number value (Nat.cast_nonneg k), Nat.abs_cast, Nat.floor_natCast]

/-- A product weighs as much as its factors multiplied. -/
theorem weight_product {product : Operator} {a b : Expr} {t : Option Token}
    (times : product = .times ∨ product = .juxtaposed) :
    (binary product a b t).weight = a.weight * b.weight :=
  Operator.weigh_product times

/-- A sum weighs a little more than its terms together. -/
theorem weight_sum {op : Operator} {a b : Expr} {t : Option Token} (sum : op.isSign = true) :
    (binary op a b t).weight = a.weight + b.weight + 1 :=
  Operator.weigh_of_isSign sum

/-- A sum reaches nowhere. -/
theorem reach_of_isSign {op : Operator} {a b : Expr} {t : Option Token}
    (sum : op.isSign = true) : (binary op a b t).reach = 0 := by
  cases op with
  | plus | minus => rfl
  | _ => cases sum

/-- Every rule goes down. -/
theorem Rule.isBelow (h : Rule e r) : IsBelow r e := by
  cases h with
  | @sign op text result t token x y _ value value' size =>
    have result_le : (number result token).weight ≤ 3 := by
      rw [weight]
      split <;> omega
    have operand_ge := two_le_weight (number text t)
    constructor
    · show _ < (number text t).weight + 2
      omega
    · show _ ≤ (number text t).reach
      rw [reach_number value', reach_number value, size]
  | @zeroth base text t token value =>
    constructor
    · rw [weight_power_natCast (k := 0) (by exact_mod_cast value), one,
        weight_number rat?_one zero_le_one]
      have positive := two_le_weight base
      have : 1 < (base.weight + 1) ^ (0 + 2) := Nat.one_lt_pow (by omega) (by omega)
      omega
    · rw [one, reach_number rat?_one, abs_one, Nat.floor_one]
      exact le_max_left 1 _
  | first value =>
    constructor
    · rw [weight_power_natCast (k := 1) (by exact_mod_cast value)]
      have : r.weight + 1 ≤ (r.weight + 1) ^ (1 + 2) := Nat.le_self_pow (by omega) _
      omega
    · exact le_max_right 1 _
  | @second base text t token value =>
    constructor
    · rw [weight_power_natCast (k := 2) (by exact_mod_cast value), weight_product (Or.inr rfl)]
      calc base.weight * base.weight
          < (base.weight + 1) * (base.weight + 1) :=
            Nat.mul_lt_mul_of_lt_of_lt (Nat.lt_succ_self _) (Nat.lt_succ_self _)
        _ = (base.weight + 1) ^ 2 := (sq _).symm
        _ ≤ (base.weight + 1) ^ (2 + 2) := Nat.pow_le_pow_right (Nat.succ_pos _) (by omega)
        _ ≤ 2 * (base.weight + 1) ^ (2 + 2) := Nat.le_mul_of_pos_left _ (by omega)
    · exact Nat.zero_le _
  | @lowered base text lower t token n above value value' =>
    -- a power outweighs the product of the base with the next lower power
    obtain ⟨k, rfl⟩ : ∃ k : ℕ, n = k + 1 := ⟨(n - 1).toNat, by omega⟩
    rw [add_sub_cancel_right] at value'
    constructor
    · rw [weight_product (Or.inr rfl), weight_power_natCast (k := k) (by exact_mod_cast value'),
        weight_power_natCast (k := k + 1) (by exact_mod_cast value),
        show k + 1 + 2 = k + 2 + 1 by omega, pow_succ _ (k + 2)]
      have : 0 < (base.weight + 1) ^ (k + 2) := Nat.pow_pos (Nat.succ_pos _)
      nlinarith
    · exact Nat.zero_le _
  | @inverse base text positive t token x below value _ value' =>
    constructor
    · -- the exponent keeps its size, and the sign that is dropped outweighs the quotient
      have quotient : (binary .divide (one t) (binary .power base (number positive t) token)
          token).weight =
          (one t).weight + (binary .power base (number positive t) token).weight + 1 := rfl
      rw [quotient, one, weight_number rat?_one zero_le_one, weight_power value,
        weight_power value', weight_number value' (by linarith), weight_number_of_neg value below,
        abs_neg]
      have positive := two_le_weight base
      have : base.weight + 1 < (base.weight + 1) ^ (⌊|x|⌋₊ + 2) :=
        lt_self_pow₀ (by omega) (by omega)
      omega
    · exact Nat.zero_le _
  | @left op product a b c t token sum times =>
    constructor
    · rw [weight_product times, weight_sum sum, weight_sum sum, weight_product (Or.inr rfl),
        weight_product (Or.inr rfl)]
      have := two_le_weight c
      nlinarith
    · exact (reach_of_isSign sum).trans_le (Nat.zero_le _)
  | @right op product a b c t token _ sum times =>
    constructor
    · rw [weight_product times, weight_sum sum, weight_sum sum, weight_product (Or.inr rfl),
        weight_product (Or.inr rfl)]
      have := two_le_weight c
      nlinarith
    · exact (reach_of_isSign sum).trans_le (Nat.zero_le _)

/-- Every contraction goes down. -/
theorem Contracts.isBelow (h : Contracts e r) (plain : e.IsPlain) : IsBelow r e := by
  induction h with
  | root contracts => exact (rule_of_contract? plain contracts).isBelow
  | part found _ ih => exact IsBelow.part found (ih (plain.parts _ (mem_of_visited_eq found)))

/-- Contractions keep an expression plain. -/
theorem Reaches.isPlain (h : Reaches e r) (plain : e.IsPlain) : r.IsPlain := by
  induction h with
  | refl => exact plain
  | tail _ last ih => exact last.isPlain ih

/-- What contractions keep holds of all that is reached by contractions. -/
theorem Reaches.keeps {P : Expr → Prop} (h : Reaches e r) (plain : e.IsPlain)
    (each : ∀ {e r}, Contracts e r → e.IsPlain → P e → P r) (start : P e) : P r := by
  induction h with
  | refl => exact start
  | tail first last ih => exact each last (Reaches.isPlain first plain) ih

/-- Contractions make an expression no heavier. -/
theorem Reaches.weight_le (h : Reaches e r) (plain : e.IsPlain) : r.weight ≤ e.weight :=
  h.keeps (P := fun r => r.weight ≤ e.weight) plain
    (fun contracts plain le => (contracts.isBelow plain).weight.le.trans le) le_rfl

/-- Contractions cannot go on for ever. -/
theorem exists_not_contracts {f : ℕ → Expr} (plain : (f 0).IsPlain) :
    ∃ n, ¬Contracts (f n) (f (n + 1)) := by
  by_contra! all
  have reached : ∀ n, Reaches (f 0) (f n) := by
    intro n
    induction n with
    | zero => exact .refl
    | succ n ih => exact ih.tail (all n)
  have falling : ∀ n, (f n).weight + n ≤ (f 0).weight := by
    intro n
    induction n with
    | zero => exact le_rfl
    | succ n ih =>
      have := ((all n).isBelow ((reached n).isPlain plain)).weight
      omega
  have := falling ((f 0).weight + 1)
  omega

/-! ## Single steps -/

/-- A step succeeds on a list if it does on its expressions. -/
theorem exists_visitAll_stepping
    (each : ∀ p ∈ es, ∃ q b, visit stepping p false = .ok (q, b)) :
    ∃ rs b, visitAll stepping es false = .ok (rs, b) := by
  induction es with
  | nil => exact ⟨[], false, rfl⟩
  | cons e es ih =>
    obtain ⟨⟨r, stepped, visited⟩, others⟩ := List.forall_mem_cons.1 each
    obtain ⟨rs, b, visited'⟩ : ∃ rs b, visitAll stepping es stepped = .ok (rs, b) := by
      cases stepped with
      | true => exact ⟨es, true, visitAll_stepping_true es⟩
      | false => exact ih others
    refine ⟨r :: rs, b, ?_⟩
    rw [visitAll]
    show (visit stepping e false >>= fun a => _) = _
    rw [visited]
    show (visitAll stepping es stepped >>= fun a => _) = _
    rw [visited']
    rfl

/-- Nothing gets in the way of a step. -/
theorem exists_step (plain : e.IsPlain) : ∃ r stepped, step e = .ok (r, stepped) := by
  show ∃ r stepped, visit stepping e false = .ok (r, stepped)
  induction e using visited_induction with
  | h e ih =>
    rcases contract?_spec plain with ⟨r, contracts, -⟩ | ⟨stuck, -⟩
    · exact ⟨r, true, visit_stepping_of_some contracts⟩
    · obtain ⟨rs, stepped, visited⟩ :=
        exists_visitAll_stepping fun p mem => ih p mem (plain.parts p mem)
      refine ⟨e.withVisited rs, stepped, ?_⟩
      rw [visit_stepping_of_none stuck]
      show (visitAll stepping e.visited false >>= fun a => _) = _
      rw [visited]
      rfl

/-- The expression after `n` single steps. -/
def steps : ℕ → Expr → Except Obstacle Expr
  | 0, e => return e
  | n + 1, e => do steps n (← step e).1

/-- Single steps come to an end where nothing is stepped any more. -/
theorem exists_steps (plain : e.IsPlain) : ∃ n r, steps n e = .ok r ∧ step r = .ok (r, false) := by
  -- every step that is made takes weight away
  induction weight : e.weight using Nat.strong_induction_on generalizing e with
  | h w ih =>
    subst weight
    obtain ⟨r, stepped, stepping⟩ := exists_step plain
    have spec := step_spec stepping
    cases stepped with
    | false =>
      obtain ⟨rfl, -⟩ := spec
      exact ⟨0, r, rfl, stepping⟩
    | true =>
      have contracts : Contracts e r := spec
      obtain ⟨n, s, reached, done⟩ :=
        ih r.weight (contracts.isBelow plain).weight (contracts.isPlain plain) rfl
      refine ⟨n + 1, s, ?_, done⟩
      rw [steps, stepping]
      exact reached

/-- Single steps are contractions. -/
theorem reaches_of_steps {n : ℕ} (h : steps n e = .ok r) : Reaches e r := by
  induction n generalizing e with
  | zero =>
    cases h
    exact .refl
  | succ n ih =>
    obtain ⟨⟨s, stepped⟩, stepping, rest⟩ := ok_of_bind h
    have spec := step_spec stepping
    cases stepped with
    | false =>
      obtain ⟨rfl, -⟩ := spec
      exact ih rest
    | true => exact (ih rest).head spec

/-! ## Full expansion -/

/-- A pass succeeds on a list if it does on its expressions. -/
theorem exists_visitAll {pass : Pass (Except Obstacle)}
    (each : ∀ p ∈ es, ∃ q, visit pass p = .ok q) : ∃ rs, visitAll pass es = .ok rs := by
  induction es with
  | nil => exact ⟨[], rfl⟩
  | cons e es ih =>
    obtain ⟨⟨r, visited⟩, others⟩ := List.forall_mem_cons.1 each
    obtain ⟨rs, visited'⟩ := ih others
    refine ⟨r :: rs, ?_⟩
    rw [visitAll, visited, visited']
    rfl

/-- An expression can be expanded in full if its weight allows for enough nesting. -/
theorem exists_expandWithin {depth : ℕ} (plain : e.IsPlain) (enough : e.weight < depth) :
    ∃ r, expandWithin depth e = .ok r := by
  -- on the depth, and for a given depth on the expression
  induction depth generalizing e with
  | zero => omega
  | succ depth again =>
    let pass : Pass (Except Obstacle) :=
      ⟨fun _ => pure none, expandWith.finish (expandWithin depth)⟩
    show ∃ r, visit pass e = .ok r
    induction e using visited_induction with
    | h e ih =>
      have each : ∀ p ∈ e.visited, ∃ q, visit pass p = .ok q := fun p mem =>
        ih p mem (plain.parts p mem) ((weight_lt_of_mem_visited mem).trans enough)
      obtain ⟨rs, visited⟩ := exists_visitAll each
      have reached : Reaches e (e.withVisited rs) := by
        refine Reaches.withVisited (forall₂_of_visitAll (fun p _ q h => ?_) visited)
        have expanded : expandWithin (depth + 1) p = .ok q := h
        exact (expandWithin_spec expanded).1
      have lighter := reached.weight_le plain
      rw [visit_of_none fun _ => rfl, visited]
      show ∃ r, pass.finish (e.withVisited rs) = .ok r
      rcases contract?_spec (reached.isPlain plain) with ⟨r, contracts, rule⟩ | ⟨stuck, -⟩
      · have lower := rule.isBelow.weight
        obtain ⟨s, expanded⟩ :=
          again (rule.isPlain (reached.isPlain plain)) (by omega : r.weight < depth)
        refine ⟨s, ?_⟩
        show (contract? (e.withVisited rs) >>= fun a => _) = _
        rw [contracts]
        exact expanded
      · refine ⟨e.withVisited rs, ?_⟩
        show (contract? (e.withVisited rs) >>= fun a => _) = _
        rw [stuck]
        rfl

/-! ## Room for nesting -/

section

variable {α β : Type} {x y z : Except Obstacle α}

/-- Whether a computation is nested too deeply or else the same as another one. -/
def Refines (x y : Except Obstacle α) : Prop := x = .error .tooDeep ∨ x = y

/-- Every result refines itself. -/
theorem refines_refl (x : Except Obstacle α) : Refines x x := Or.inr rfl

/-- A sequence is refined if both of its steps are. -/
theorem Refines.bind {f g : α → Except Obstacle β} (h : Refines x y)
    (next : ∀ a, Refines (f a) (g a)) : Refines (x >>= f) (y >>= g) := by
  rcases h with rfl | rfl
  · exact Or.inl rfl
  · cases x with
    | error o => exact refines_refl _
    | ok a => exact next a

end

/-- A pass is refined on a list if it is on its expressions. -/
theorem refines_visitAll {pass pass' : Pass (Except Obstacle)}
    (each : ∀ p ∈ es, Refines (visit pass p) (visit pass' p)) :
    Refines (visitAll pass es) (visitAll pass' es) := by
  induction es with
  | nil => exact refines_refl _
  | cons e es ih =>
    obtain ⟨first, others⟩ := List.forall_mem_cons.1 each
    rw [visitAll, visitAll]
    exact first.bind fun r => (ih others).bind fun rs => refines_refl _

/-- Expansion is refined if the expansion of what comes out of contractions is. -/
theorem refines_expandWith {again again' : Expr → Except Obstacle Expr}
    (h : ∀ e, Refines (again e) (again' e)) (e : Expr) :
    Refines (expandWith again e) (expandWith again' e) := by
  show Refines (visit ⟨fun _ => pure none, expandWith.finish again⟩ e)
    (visit ⟨fun _ => pure none, expandWith.finish again'⟩ e)
  induction e using visited_induction with
  | h e ih =>
    rw [visit_of_none fun _ => rfl, visit_of_none fun _ => rfl]
    refine (refines_visitAll ih).bind fun rs => (refines_refl _).bind fun r? => ?_
    cases r? with
    | none => exact refines_refl _
    | some r => exact h r

/-- More room for nesting does not change the result of an expansion. -/
theorem refines_expandWithin {depth depth' : ℕ} (le : depth ≤ depth') (e : Expr) :
    Refines (expandWithin depth e) (expandWithin depth' e) := by
  induction depth generalizing depth' e with
  | zero => exact Or.inl rfl
  | succ depth ih =>
    obtain ⟨depth', rfl⟩ := Nat.exists_eq_add_one_of_ne_zero (Nat.ne_zero_of_lt le)
    exact refines_expandWith (ih (Nat.le_of_succ_le_succ le)) e

/-- An expression has one full expansion, and any room for nesting is either too small or enough for
it. -/
theorem exists_expansion (plain : e.IsPlain) : ∃ r, Reaches e r ∧ r.IsNormal ∧
    (∀ depth, e.weight < depth → expandWithin depth e = .ok r) ∧
    ∀ depth, expandWithin depth e = .ok r ∨ expandWithin depth e = .error .tooDeep := by
  obtain ⟨r, expanded⟩ := exists_expandWithin plain (Nat.lt_succ_self e.weight)
  obtain ⟨reached, normal⟩ := expandWithin_spec expanded
  have enough : ∀ depth, e.weight < depth → expandWithin depth e = .ok r := by
    intro depth more
    rcases refines_expandWithin (Nat.succ_le_of_lt more) e with deep | same
    · rw [expanded] at deep
      cases deep
    · exact same.symm.trans expanded
  refine ⟨r, reached, normal, enough, fun depth => ?_⟩
  rcases Nat.lt_or_ge e.weight depth with more | less
  · exact Or.inl (enough depth more)
  · rcases refines_expandWithin (less.trans (Nat.le_succ _)) e with deep | same
    · exact Or.inr deep
    · exact Or.inl (same.trans expanded)

/-! ## Termination -/

/-- Contractions of an expression with plain numerals come to an end, wherever and in whatever order
they are made. So the expression has a full expansion, which is found given that enough contractions
may be nested in one another, and single steps that are made again and again get to where nothing is
stepped. -/
theorem contractions_end (plain : e.IsPlain) :
    (¬∃ f : ℕ → Expr, f 0 = e ∧ ∀ n, Contracts (f n) (f (n + 1))) ∧
    (∃ r, Reaches e r ∧ r.IsNormal ∧
      (∀ depth, e.weight < depth → expandWithin depth e = .ok r) ∧
      ∀ depth, expandWithin depth e = .ok r ∨ expandWithin depth e = .error .tooDeep) ∧
    ∃ n r, steps n e = .ok r ∧ step r = .ok (r, false) := by
  refine ⟨?_, exists_expansion plain, exists_steps plain⟩
  rintro ⟨f, rfl, all⟩
  obtain ⟨n, ends⟩ := exists_not_contracts plain
  exact ends (all n)

/-- Single steps on the power of a power `(x ^ 2) ^ -3` come to an end. -/
theorem contractions_end_power : ∃ n r,
    steps n (binary .power (binary .power (var "x" [] none) (number "2" none) none)
      (unary .minus (number "3" none) none) none) = .ok r ∧ step r = .ok (r, false) := by
  have two : Numeral.IsPlain "2" :=
    @Numeral.IsShortSplit.isPlain ['2'] [] ⟨by decide, List.all_eq_true.1 rfl, by decide⟩
  have three : Numeral.IsPlain "3" :=
    @Numeral.IsShortSplit.isPlain ['3'] [] ⟨by decide, List.all_eq_true.1 rfl, by decide⟩
  refine (contractions_end ?_).2.2
  simp [IsPlain, HasPlainRoot, two, three, Operator.isSign]

end Expr

end TexAlgebra
