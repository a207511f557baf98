import TexAlgebra.Proofs.Environment.Visible
import TexAlgebra.Proofs.Evaluation.Folded
import TexAlgebra.Proofs.Numeral.Respelled
/-!
# Evaluation and the spelling of numbers

Expressions that match differ in the spelling of their numbers, within subscripts or outside of
them. In an environment that was made by binding variables and opening scopes, both find the same
values, so what they evaluate to matches again: `Evaluation.matches_evaluate`.
-/

namespace TexAlgebra

namespace Expr

/-! ## Respelled expressions -/

/-- Whether two expressions are the same but for the spelling of numbers, all of which have values.
-/
structure Respells (a b : Expr) : Prop where
  left : a.IsWellFormed
  right : b.IsWellFormed
  pattern : a.pattern = b.pattern

variable {a b : Expr} {as bs : List Expr}

/-- Expressions that respell each other match. -/
theorem Respells.matchesWith (h : a.Respells b) : a.matchesWith b = .ok true :=
  (decides_matchesWith h.left h.right).eq_true_iff.2 h.pattern

theorem respells_number {s t : String} {u u' : Option Token} (h : Numeral.Respells s t) :
    (number s u).Respells (number t u') := by
  obtain ⟨v, hs, ht⟩ := h
  exact ⟨.number hs, .number ht, by rw [Expr.pattern, Expr.pattern, hs, ht]⟩

theorem respells_unary {op op' : Operator} {token token' : Option Token}
    (alike : op.explicit = op'.explicit) (h : a.Respells b) :
    (unary op a token).Respells (unary op' b token') :=
  ⟨.unary h.left, .unary h.right, by rw [Expr.pattern, Expr.pattern, alike, h.pattern]⟩

theorem respells_binary {op op' : Operator} {lhs rhs lhs' rhs' : Expr} {token token' : Option Token}
    (alike : op.explicit = op'.explicit) (left : lhs.Respells lhs') (right : rhs.Respells rhs') :
    (binary op lhs rhs token).Respells (binary op' lhs' rhs' token') :=
  ⟨.binary left.left right.left, .binary left.right right.right,
    by rw [Expr.pattern, Expr.pattern, alike, left.pattern, right.pattern]⟩

/-- Lists of one pattern are respelled item by item. -/
theorem forall₂_respells (left : ∀ a ∈ as, a.IsWellFormed) (right : ∀ b ∈ bs, b.IsWellFormed)
    (same : patterns as = patterns bs) : List.Forall₂ Respells as bs := by
  induction as generalizing bs with
  | nil =>
    cases bs with
    | nil => exact .nil
    | cons b bs => simp [patterns] at same
  | cons a as ih =>
    cases bs with
    | nil => simp [patterns] at same
    | cons b bs =>
      obtain ⟨ha, has⟩ := List.forall_mem_cons.1 left
      obtain ⟨hb, hbs⟩ := List.forall_mem_cons.1 right
      rw [patterns, patterns, List.cons.injEq] at same
      exact .cons ⟨ha, hb, same.1⟩ (ih has hbs same.2)

/-- Lists that respell each other are well-formed and have the same patterns. -/
theorem parts_of_forall₂ (h : List.Forall₂ Respells as bs) :
    (∀ a ∈ as, a.IsWellFormed) ∧ (∀ b ∈ bs, b.IsWellFormed) ∧ patterns as = patterns bs := by
  induction h with
  | nil => exact ⟨by simp, by simp, rfl⟩
  | cons first _ ih =>
    obtain ⟨left, right, same⟩ := ih
    exact ⟨List.forall_mem_cons.2 ⟨first.left, left⟩, List.forall_mem_cons.2 ⟨first.right, right⟩,
      by rw [patterns, patterns, first.pattern, same]⟩

theorem respells_group {token token' : Option Token} (h : List.Forall₂ Respells as bs) :
    (group as token).Respells (group bs token') := by
  obtain ⟨left, right, same⟩ := parts_of_forall₂ h
  exact ⟨.group left, .group right, by rw [Expr.pattern, Expr.pattern, same]⟩

theorem respells_command {name : String} {token token' : Option Token}
    (h : List.Forall₂ Respells as bs) :
    (command name as token).Respells (command name bs token') := by
  obtain ⟨left, right, same⟩ := parts_of_forall₂ h
  exact ⟨.command left, .command right, by rw [Expr.pattern, Expr.pattern, same]⟩

/-! ## What respells a node -/

/-- What respells a number is a number of the same value. -/
theorem Respells.exists_number {s : String} {u : Option Token} (h : (number s u).Respells b) :
    ∃ t u', b = .number t u' ∧ Numeral.Respells s t := by
  obtain ⟨_ | _, right, pattern⟩ := h
  next v spelled =>
  cases right with
  | @number t u' v' spelled' =>
    refine ⟨t, u', rfl, v, spelled, ?_⟩
    simpa [Expr.pattern, spelled, spelled'] using pattern.symm
  | _ => simp [Expr.pattern] at pattern

/-- Respelling goes both ways. -/
theorem Respells.symm (h : a.Respells b) : b.Respells a := ⟨h.right, h.left, h.pattern.symm⟩

/-- What respells a number is a number. -/
theorem Respells.isNumber (h : a.Respells b) : a.isNumber = b.isNumber := by
  have forward : ∀ {a b : Expr}, a.Respells b → a.isNumber = true → b.isNumber = true := by
    intro a b h number
    cases a with
    | number =>
      obtain ⟨t, u, rfl, -⟩ := h.exists_number
      rfl
    | _ => cases number
  exact Bool.eq_iff_iff.2 ⟨forward h, forward h.symm⟩

/-- What respells a variable is a variable of the same name. -/
theorem Respells.exists_var {name : String} {subscripts : List Expr} {u : Option Token}
    (h : (var name subscripts u).Respells b) : ∃ subscripts' u', b = .var name subscripts' u' := by
  obtain ⟨-, right, pattern⟩ := h
  cases right with
  | var =>
    simp only [Expr.pattern, Pattern.node.injEq, Label.var.injEq] at pattern
    exact ⟨_, _, by rw [pattern.1]⟩
  | _ => simp [Expr.pattern] at pattern

/-- What respells a sign is a sign whose operand respells the first one. -/
theorem Respells.exists_unary {op : Operator} {operand : Expr} {u : Option Token}
    (h : (unary op operand u).Respells b) :
    ∃ op' operand' u', b = .unary op' operand' u' ∧ op.explicit = op'.explicit ∧
      operand.Respells operand' := by
  obtain ⟨_ | _, right, pattern⟩ := h
  next left =>
  cases right with
  | unary right =>
    simp only [Expr.pattern, Pattern.node.injEq, Label.unary.injEq, List.cons.injEq, and_true]
      at pattern
    exact ⟨_, _, _, rfl, pattern.1, left, right, pattern.2⟩
  | _ => simp [Expr.pattern] at pattern

/-- What respells an operation is the same operation, written or left out, and its operands respell
the first ones. -/
theorem Respells.exists_binary {op : Operator} {lhs rhs : Expr} {u : Option Token}
    (h : (binary op lhs rhs u).Respells b) :
    ∃ op' lhs' rhs' u', b = .binary op' lhs' rhs' u' ∧ op.explicit = op'.explicit ∧
      lhs.Respells lhs' ∧ rhs.Respells rhs' := by
  obtain ⟨_ | _, right, pattern⟩ := h
  next left_l left_r =>
  cases right with
  | binary right_l right_r =>
    simp only [Expr.pattern, Pattern.node.injEq, Label.binary.injEq, List.cons.injEq, and_true]
      at pattern
    exact ⟨_, _, _, _, rfl, pattern.1, ⟨left_l, right_l, pattern.2.1⟩, left_r, right_r,
      pattern.2.2⟩
  | _ => simp [Expr.pattern] at pattern

/-- What respells a group is a group whose items respell the first ones. -/
theorem Respells.exists_group {items : List Expr} {u : Option Token}
    (h : (group items u).Respells b) :
    ∃ items' u', b = .group items' u' ∧ List.Forall₂ Respells items items' := by
  obtain ⟨_ | _, right, pattern⟩ := h
  next left =>
  cases right with
  | group right =>
    simp only [Expr.pattern, Pattern.node.injEq, true_and] at pattern
    exact ⟨_, _, rfl, forall₂_respells left right pattern⟩
  | _ => simp [Expr.pattern] at pattern

/-- What respells a command is the same command, and its arguments respell the first ones. -/
theorem Respells.exists_command {name : String} {arguments : List Expr} {u : Option Token}
    (h : (command name arguments u).Respells b) :
    ∃ arguments' u', b = .command name arguments' u' ∧
      List.Forall₂ Respells arguments arguments' := by
  obtain ⟨_ | _, right, pattern⟩ := h
  next left =>
  cases right with
  | command right =>
    simp only [Expr.pattern, Pattern.node.injEq, Label.command.injEq] at pattern
    exact ⟨_, _, by rw [pattern.1], forall₂_respells left right pattern.2⟩
  | _ => simp [Expr.pattern] at pattern

end Expr

open TexAlgebra.Expr

namespace Evaluation

variable {body : Room → Expr → Eval Expr} {room room' : Room} {s t t' : Evaluator} {a b v w : Expr}
  {token token' : Option Token}

/-! ## Operators -/

/-- A sign in front of anything but a number stays. -/
theorem signed_of_not_number {op : Operator} (other : a.isNumber = false)
    (h : signed op a token s = (.ok v, t)) : s = t ∧ v = .unary op a token := by
  obtain ⟨same, kept | ⟨_, _, _, rfl, -⟩⟩ := signed_result h
  · exact ⟨same, kept⟩
  · cases other

/-- A sign in front of a number is computed. -/
theorem signed_of_number {op : Operator} {text : String} {u : Option Token}
    (h : signed op (.number text u) token s = (.ok v, t)) :
    s = t ∧ ∃ result, Numeral.signed op text = .ok result ∧ v = .number result (token <|> u) := by
  obtain ⟨result, r, attempted, h⟩ := ok_of_bind h
  obtain ⟨computed, rfl⟩ := ok_of_attempt attempted
  obtain ⟨rfl, rfl⟩ := ok_of_pure h
  exact ⟨rfl, result, computed, rfl⟩

/-- Only a sign makes a number of a number, and a sign is written in one way. -/
theorem eq_of_signed {op op' : Operator} {text result : String}
    (h : Numeral.signed op text = .ok result) (alike : op.explicit = op'.explicit) : op = op' := by
  unfold Numeral.signed at h
  cases op with
  | plus => cases op' <;> first | rfl | cases alike
  | minus => cases op' <;> first | rfl | cases alike
  | _ => cases h

/-- Signs in front of values that respell each other give results that do, and leave the states
alone. -/
theorem respells_signed {op op' : Operator} {x y : Expr} (alike : op.explicit = op'.explicit)
    (same : v.Respells w) (hv : signed op v token s = (.ok x, t))
    (hw : signed op' w token' s = (.ok y, t')) : s = t ∧ s = t' ∧ x.Respells y := by
  cases number : v.isNumber with
  | true =>
    cases v with
    | number text u =>
      obtain ⟨text', u', rfl, respells⟩ := same.exists_number
      obtain ⟨rfl, result, computed, rfl⟩ := signed_of_number hv
      obtain ⟨rfl, result', computed', rfl⟩ := signed_of_number hw
      obtain rfl := eq_of_signed computed alike
      exact ⟨rfl, rfl, respells_number (respells.signed computed computed')⟩
    | _ => cases number
  | false =>
    obtain ⟨rfl, rfl⟩ := signed_of_not_number number hv
    obtain ⟨rfl, rfl⟩ := signed_of_not_number (same.isNumber ▸ number) hw
    exact ⟨rfl, rfl, respells_unary alike same⟩

/-- An operation with an operand that is no number stays. -/
theorem operation_of_not_numbers {op : Operator} (other : (a.isNumber && b.isNumber) = false)
    (h : operation op a b token s = (.ok v, t)) : s = t ∧ v = .binary op a b token := by
  obtain ⟨same, kept | ⟨_, _, _, _, _, rfl, rfl, -⟩⟩ := operation_result h
  · exact ⟨same, kept⟩
  · cases other

/-- What an operation on two numbers results in. An equation is kept, and so is what is undefined.
-/
theorem operation_of_numbers {op : Operator} {lhs rhs : String} {u u' : Option Token}
    (h : operation op (.number lhs u) (.number rhs u') token s = (.ok v, t)) :
    s = t ∧ ((op = .equals ∧ v = .binary op (.number lhs u) (.number rhs u') token) ∨
      ∃ result, Numeral.combined op lhs rhs = .ok result ∧
        ((result = none ∧ v = .binary op (.number lhs u) (.number rhs u') token) ∨
          ∃ text, result = some text ∧ v = .number text (token <|> u))) := by
  by_cases equals : op = .equals
  · subst equals
    obtain ⟨rfl, rfl⟩ := ok_of_pure h
    exact ⟨rfl, .inl ⟨rfl, rfl⟩⟩
  · rw [operation_numbers equals] at h
    obtain ⟨result, r, attempted, h⟩ := ok_of_bind h
    obtain ⟨computed, rfl⟩ := ok_of_attempt attempted
    cases result with
    | none =>
      obtain ⟨rfl, rfl⟩ := ok_of_pure h
      exact ⟨rfl, .inr ⟨none, computed, .inl ⟨rfl, rfl⟩⟩⟩
    | some text =>
      obtain ⟨rfl, rfl⟩ := ok_of_pure h
      exact ⟨rfl, .inr ⟨some text, computed, .inr ⟨text, rfl, rfl⟩⟩⟩

/-- An operation that computes something is not an equation. -/
theorem explicit_ne_equals {op : Operator} {lhs rhs : String} {result : Option String}
    (h : Numeral.combined op lhs rhs = .ok result) : op.explicit ≠ .equals := by
  cases op with
  | equals => cases h
  | _ => exact Operator.noConfusion

/-- Operations on values that respell each other give results that do, and leave the states alone.
-/
theorem respells_operation {op op' : Operator} {lhs rhs lhs' rhs' x y : Expr}
    (alike : op.explicit = op'.explicit) (left : lhs.Respells lhs') (right : rhs.Respells rhs')
    (hv : operation op lhs rhs token s = (.ok x, t))
    (hw : operation op' lhs' rhs' token' s = (.ok y, t')) : s = t ∧ s = t' ∧ x.Respells y := by
  have kept : (Expr.binary op lhs rhs token).Respells (.binary op' lhs' rhs' token') :=
    respells_binary alike left right
  -- only two numbers are combined, and the values are numbers on one side if they are on the other
  cases numbers : (lhs.isNumber && rhs.isNumber) with
  | false =>
    obtain ⟨rfl, rfl⟩ := operation_of_not_numbers numbers hv
    obtain ⟨rfl, rfl⟩ :=
      operation_of_not_numbers (by rw [← left.isNumber, ← right.isNumber, numbers]) hw
    exact ⟨rfl, rfl, kept⟩
  | true =>
    obtain ⟨number, number'⟩ := Bool.and_eq_true_iff.1 numbers
    obtain ⟨p, u, rfl⟩ := exists_of_isNumber number
    obtain ⟨q, u', rfl⟩ := exists_of_isNumber number'
    obtain ⟨p', _, rfl, respells⟩ := left.exists_number
    obtain ⟨q', _, rfl, respells'⟩ := right.exists_number
    obtain ⟨rfl, ⟨equals, rfl⟩ | ⟨result, computed, hv⟩⟩ := operation_of_numbers hv
    all_goals obtain ⟨rfl, ⟨equals', rfl⟩ | ⟨result', computed', hw⟩⟩ := operation_of_numbers hw
    · exact ⟨rfl, rfl, kept⟩
    · -- an equation is computed on neither side
      exact absurd (by rw [← alike, equals]; rfl) (explicit_ne_equals computed')
    · exact absurd (by rw [alike, equals']; rfl) (explicit_ne_equals computed)
    refine ⟨rfl, rfl, ?_⟩
    obtain ⟨rfl, rfl⟩ | ⟨m, n, rfl, rfl, same⟩ :=
      Numeral.Respells.combined alike respells respells' computed computed'
    · obtain ⟨-, rfl⟩ | ⟨_, none, -⟩ := hv
      · obtain ⟨-, rfl⟩ | ⟨_, none, -⟩ := hw
        · exact kept
        · cases none
      · cases none
    · obtain ⟨none, -⟩ | ⟨_, ⟨⟩, rfl⟩ := hv
      · cases none
      · obtain ⟨none, -⟩ | ⟨_, ⟨⟩, rfl⟩ := hw
        · cases none
        · exact respells_number same

/-! ## Expressions -/

/-- Whether evaluating an expression and evaluating one that respells it binds nothing and gives
respelled values, in whatever room each of them is evaluated. -/
def EvaluatesAlike (body : Room → Expr → Eval Expr) (s : Evaluator) (a : Expr) : Prop :=
  ∀ ⦃room room' b v w t t'⦄, a.Respells b → evaluateWith body room a s = (.ok v, t) →
    evaluateWith body room' b s = (.ok w, t') → s = t ∧ s = t' ∧ v.Respells w

/-- The values of lists that respell each other do so as well. -/
theorem respells_evaluateAllWith {as bs vs ws : List Expr}
    (each : ∀ a ∈ as, EvaluatesAlike body s a) (alike : List.Forall₂ Respells as bs)
    (hv : evaluateAllWith body room as s = (.ok vs, t))
    (hw : evaluateAllWith body room' bs s = (.ok ws, t')) :
    s = t ∧ s = t' ∧ List.Forall₂ Respells vs ws := by
  induction alike generalizing vs ws t t' with
  | nil =>
    rw [evaluateAllWith] at hv hw
    obtain ⟨rfl, rfl⟩ := ok_of_pure hv
    obtain ⟨rfl, rfl⟩ := ok_of_pure hw
    exact ⟨rfl, rfl, .nil⟩
  | cons same _ ih =>
    obtain ⟨first, others⟩ := List.forall_mem_cons.1 each
    rw [evaluateAllWith] at hv hw
    obtain ⟨v, r, evaluated, hv⟩ := ok_of_bind hv
    obtain ⟨w, r', evaluated', hw⟩ := ok_of_bind hw
    obtain ⟨rfl, rfl, alike⟩ := first same evaluated evaluated'
    obtain ⟨vs, r, evaluated, hv⟩ := ok_of_bind hv
    obtain ⟨ws, r', evaluated', hw⟩ := ok_of_bind hw
    obtain ⟨rfl, rfl, rest⟩ := ih others evaluated evaluated'
    obtain ⟨rfl, rfl⟩ := ok_of_pure hv
    obtain ⟨rfl, rfl⟩ := ok_of_pure hw
    exact ⟨rfl, rfl, .cons alike rest⟩

/-- Where respelled variables have the same value and all values are well-formed, respelled
algebraic expressions have respelled values. -/
theorem respells_evaluateWith
    (lookups : ∀ ⦃x y : Expr⦄, x.Respells y → s.environment.lookup x = s.environment.lookup y)
    (values : s.environment.AllValues Expr.IsWellFormed) (h : a.IsAlgebraic) :
    EvaluatesAlike body s a := by
  induction h with
  | number =>
    intro room room' b v w t t' alike hv hw
    obtain ⟨_, _, rfl, same⟩ := alike.exists_number
    rw [evaluateWith] at hv hw
    obtain ⟨_, hv⟩ := ok_of_nested hv
    obtain ⟨_, hw⟩ := ok_of_nested hw
    obtain ⟨rfl, rfl⟩ := ok_of_pure hv
    obtain ⟨rfl, rfl⟩ := ok_of_pure hw
    exact ⟨rfl, rfl, alike⟩
  | @var name subscripts token =>
    intro room room' b v w t t' alike hv hw
    obtain ⟨subscripts', u, rfl⟩ := alike.exists_var
    rw [evaluateWith] at hv hw
    obtain ⟨_, hv⟩ := ok_of_nested hv
    obtain ⟨_, hw⟩ := ok_of_nested hw
    obtain ⟨found, r, looked, hv⟩ := ok_of_bind hv
    obtain ⟨found', r', looked', hw⟩ := ok_of_bind hw
    obtain ⟨bound, rfl⟩ := ok_of_lookup looked
    obtain ⟨bound', rfl⟩ := ok_of_lookup looked'
    obtain ⟨rfl, rfl⟩ := ok_of_pure hv
    obtain ⟨rfl, rfl⟩ := ok_of_pure hw
    cases (lookups alike ▸ bound).symm.trans bound'
    refine ⟨rfl, rfl, ?_⟩
    cases found with
    | none => exact alike
    | some value =>
      -- well-formed values respell themselves
      have spelled : value.IsWellFormed := values.of_lookup bound
      exact ⟨spelled, spelled, rfl⟩
  | unary _ inner =>
    intro room room' b v w t t' alike hv hw
    obtain ⟨op', operand', u, rfl, same, operand⟩ := alike.exists_unary
    rw [evaluateWith] at hv hw
    obtain ⟨_, hv⟩ := ok_of_nested hv
    obtain ⟨_, hw⟩ := ok_of_nested hw
    obtain ⟨x, r, evaluated, hv⟩ := ok_of_bind hv
    obtain ⟨y, r', evaluated', hw⟩ := ok_of_bind hw
    obtain ⟨rfl, rfl, alike⟩ := inner operand evaluated evaluated'
    exact respells_signed same alike hv hw
  | binary _ _ ihl ihr =>
    intro room room' b v w t t' alike hv hw
    obtain ⟨op', lhs', rhs', u, rfl, same, left, right⟩ := alike.exists_binary
    rw [evaluateWith] at hv hw
    obtain ⟨_, hv⟩ := ok_of_nested hv
    obtain ⟨_, hw⟩ := ok_of_nested hw
    obtain ⟨x, r, evaluated, hv⟩ := ok_of_bind hv
    obtain ⟨y, r', evaluated', hw⟩ := ok_of_bind hw
    obtain ⟨rfl, rfl, left⟩ := ihl left evaluated evaluated'
    obtain ⟨x', r, evaluated, hv⟩ := ok_of_bind hv
    obtain ⟨y', r', evaluated', hw⟩ := ok_of_bind hw
    obtain ⟨rfl, rfl, right⟩ := ihr right evaluated evaluated'
    exact respells_operation same left right hv hw
  | group _ all =>
    intro room room' b v w t t' alike hv hw
    obtain ⟨items', u, rfl, items⟩ := alike.exists_group
    rw [evaluateWith] at hv hw
    obtain ⟨_, hv⟩ := ok_of_nested hv
    obtain ⟨_, hw⟩ := ok_of_nested hw
    obtain ⟨vs, r, evaluated, hv⟩ := ok_of_bind hv
    obtain ⟨ws, r', evaluated', hw⟩ := ok_of_bind hw
    obtain ⟨rfl, rfl, alike⟩ := respells_evaluateAllWith all items evaluated evaluated'
    obtain ⟨rfl, rfl⟩ := ok_of_pure hv
    obtain ⟨rfl, rfl⟩ := ok_of_pure hw
    exact ⟨rfl, rfl, respells_group alike⟩
  | command _ all =>
    intro room room' b v w t t' alike hv hw
    obtain ⟨arguments', u, rfl, arguments⟩ := alike.exists_command
    rw [evaluateWith] at hv hw
    obtain ⟨_, hv⟩ := ok_of_nested hv
    obtain ⟨_, hw⟩ := ok_of_nested hw
    obtain ⟨vs, r, evaluated, hv⟩ := ok_of_bind hv
    obtain ⟨ws, r', evaluated', hw⟩ := ok_of_bind hw
    obtain ⟨rfl, rfl, alike⟩ := respells_evaluateAllWith all arguments evaluated evaluated'
    obtain ⟨rfl, rfl⟩ := ok_of_pure hv
    obtain ⟨rfl, rfl⟩ := ok_of_pure hw
    exact ⟨rfl, rfl, respells_command alike⟩

/-- In an environment made by binding variables and by opening and closing scopes, an algebraic
expression and one that matches it, each with a value, have values that match. -/
theorem matches_evaluate {os : List (Operation Expr)} {env : Environment Expr} {n : Nat}
    (reached : Environment.empty.performAll os = .ok env)
    (values : ∀ x v, .set x v ∈ os → v.IsWellFormed) (tree : a.IsAlgebraic)
    (spelled : a.IsWellFormed) (spelled' : b.IsWellFormed) (alike : a.matchesWith b = .ok true)
    (hv : evaluate a ⟨env, n⟩ = (.ok v, t)) (hw : evaluate b ⟨env, n⟩ = (.ok w, t')) :
    v.matchesWith w = .ok true := by
  obtain ⟨st, refines⟩ := Environment.refines_empty.exists_of_performAll reached
  have bound : env.AllValues Expr.IsWellFormed :=
    Environment.AllValues.performAll (by simp [Environment.AllValues, Environment.empty]) values
      reached
  obtain ⟨evaluated, -⟩ := ok_of_evaluate hv
  obtain ⟨evaluated', -⟩ := ok_of_evaluate hw
  have same : a.pattern = b.pattern := (decides_matchesWith spelled spelled').eq_true_iff.1 alike
  obtain ⟨-, -, result⟩ := respells_evaluateWith
    (fun x y h => refines.lookup_congr h.left h.right h.pattern) bound tree
    ⟨spelled, spelled', same⟩ evaluated evaluated'
  exact result.matchesWith

/-- Where `x_{1}` is bound to `1.5`, the values of `x_{1} + 2` and `x_{1.0} + 2.00` are `3.5` and
`3.50`, which match. -/
theorem matches_evaluate_indexed :
    let x (subscript : String) : Expr := .var "x" [.number subscript none] none
    let sum (lhs : Expr) (rhs : String) : Expr := .binary .plus lhs (.number rhs none) none
    let env : Environment Expr := ⟨[(x "1", .number "1.5" none)], []⟩
    (evaluate (sum (x "1") "2") ⟨env, 0⟩).1 = .ok (.number "3.5" none) ∧
      (evaluate (sum (x "1.0") "2.00") ⟨env, 0⟩).1 = .ok (.number "3.50" none) ∧
        (Expr.number "3.5" none).matchesWith (.number "3.50" none) = .ok true := by
  intro x sum env
  have reached : Environment.empty.performAll
      [.set (.indexed "x" "1" rfl) (.number "1.5" none)] = .ok env := rfl
  have bound : (Expr.number "1.5" none).IsWellFormed := .number (v := .finite ⟨false, 15, -1⟩) rfl
  have index : ∀ subscript v, Numeral.value? subscript = some v → (x subscript).IsWellFormed :=
    fun _ _ h => .var (List.forall_mem_singleton.2 (.number h))
  have one : (x "1").IsWellFormed := index "1" (.finite ⟨false, 1, 0⟩) rfl
  have one' : (x "1.0").IsWellFormed := index "1.0" (.finite ⟨false, 1, 0⟩) rfl
  have spelled : (sum (x "1") "2").IsWellFormed :=
    .binary one (.number (v := .finite ⟨false, 2, 0⟩) rfl)
  have spelled' : (sum (x "1.0") "2.00").IsWellFormed :=
    .binary one' (.number (v := .finite ⟨false, 2, 0⟩) rfl)
  have alike : (sum (x "1") "2").matchesWith (sum (x "1.0") "2.00") = .ok true :=
    (decides_matchesWith spelled spelled').eq_true_iff.2 rfl
  have found : lookup (x "1.0") ⟨env, 0⟩ = (.ok (some (.number "1.5" none)), ⟨env, 0⟩) := by
    have matching : (x "1").matchesWith (x "1.0") = .ok true :=
      (decides_matchesWith one one').eq_true_iff.2 rfl
    have other : (x "1" == x "1.0") = false := rfl
    have looked : env.lookup (x "1.0") = .ok (some (.number "1.5" none)) := by
      simp [env, Environment.lookup, Environment.lookupIn, Scope.lookup, Scope.firstMatch?, other,
        matching]
      rfl
    show attempt (env.lookup (x "1.0")) _ = _
    rw [looked]
    rfl
  have operand : evaluateWithin maxLevels (.levels maxLevels) (x "1.0") ⟨env, 0⟩ =
      (.ok (.number "1.5" none), ⟨env, 0⟩) := (bind_of_ok found).trans rfl
  have total : evaluateWithin maxLevels (.levels maxLevels) (sum (x "1.0") "2.00") ⟨env, 0⟩ =
      (.ok (.number "3.50" none), ⟨env, 0⟩) := (bind_of_ok operand).trans rfl
  have first : evaluate (sum (x "1") "2") ⟨env, 0⟩ = (.ok (.number "3.5" none), ⟨env, 0⟩) := rfl
  have second : evaluate (sum (x "1.0") "2.00") ⟨env, 0⟩ =
      (.ok (.number "3.50" none), ⟨env, 0⟩) := (bind_of_ok total).trans rfl
  refine ⟨congrArg Prod.fst first, congrArg Prod.fst second, ?_⟩
  refine matches_evaluate reached ?_ (.binary .var .number) spelled spelled' alike first second
  intro y v set
  cases List.mem_singleton.1 set
  exact bound

end Evaluation

end TexAlgebra
