import TexAlgebra.Proofs.Evaluation.Meaning
import TexAlgebra.Proofs.Evaluation.Settled
/-!
# Folded trees

An algebraic expression is folded if no sign stands before a number and no operation that is defined
stands between two numbers (`Expr.IsFolded`). Evaluation folds every algebraic expression, as long
as only folded ones are bound, and what is folded is its own value wherever its variables are not
bound: `Evaluation.isFolded_evaluate`.
-/

namespace TexAlgebra

namespace Expr

/-- The algebraic expressions in which, subscripts aside, no number has a sign and every operation
on two numbers is undefined or an equation. -/
inductive IsFolded : Expr → Prop
  | number {text : String} {token : Option Token} : IsFolded (.number text token)
  | var {name : String} {subscripts : List Expr} {token : Option Token} :
    IsFolded (.var name subscripts token)
  | unary {op : Operator} {operand : Expr} {token : Option Token} (inner : IsFolded operand)
      (no_number : operand.isNumber = false) : IsFolded (.unary op operand token)
  | binary {op : Operator} {lhs rhs : Expr} {token : Option Token} (left : IsFolded lhs)
      (right : IsFolded rhs)
      (undefined : ∀ a t b u, lhs = .number a t → rhs = .number b u → op ≠ .equals →
        Numeral.combined op a b = .ok none) : IsFolded (.binary op lhs rhs token)
  | group {items : List Expr} {token : Option Token} (all : ∀ e ∈ items, IsFolded e) :
    IsFolded (.group items token)
  | command {name : String} {arguments : List Expr} {token : Option Token}
      (all : ∀ e ∈ arguments, IsFolded e) : IsFolded (.command name arguments token)

variable {e : Expr}

/-- What is folded consists of numbers, names and operations. -/
theorem IsFolded.isAlgebraic (h : e.IsFolded) : e.IsAlgebraic := by
  induction h with
  | number => exact .number
  | var => exact .var
  | unary _ _ inner => exact .unary inner
  | binary _ _ _ left right => exact .binary left right
  | group _ all => exact .group all
  | command _ all => exact .command all

/-- What is folded has no operation on numbers left to compute. -/
theorem IsFolded.isSettled (h : e.IsFolded) : e.IsSettled := by
  induction h with
  | number => exact .number
  | var => exact .var
  | unary tree no_number inner => exact .unary inner no_number tree.isAlgebraic.isFunction
  | @binary op lhs rhs _ left right undefined settled_l settled_r =>
    have no_function : (lhs.isFunction || rhs.isFunction) = false := by
      rw [left.isAlgebraic.isFunction, right.isAlgebraic.isFunction]
      rfl
    refine .binary settled_l settled_r no_function fun a t b u hl hr => ?_
    by_cases equals : op = .equals
    · exact .inl equals
    · exact .inr (undefined a t b u hl hr equals)
  | group _ all => exact .group all
  | command _ all => exact .command all

/-- An algebraic expression in which nothing is left to compute is folded. -/
theorem IsAlgebraic.isFolded (h : e.IsAlgebraic) (settled : e.IsSettled) : e.IsFolded := by
  induction h with
  | number => exact .number
  | var => exact .var
  | unary _ inner =>
    cases settled with
    | unary settled no_number _ => exact .unary (inner settled) no_number
  | binary _ _ left right =>
    cases settled with
    | binary settled_l settled_r _ undefined =>
      refine .binary (left settled_l) (right settled_r) fun a t b u hl hr other => ?_
      exact (undefined a t b u hl hr).resolve_left other
  | group _ all =>
    cases settled with
    | group settled => exact .group fun e he => all e he (settled e he)
  | command _ all =>
    cases settled with
    | command settled => exact .command fun e he => all e he (settled e he)

end Expr

open TexAlgebra.Expr

namespace Evaluation

variable {body : Room → Expr → Eval Expr} {room : Room} {s t : Evaluator} {e v : Expr}

/-! ## Values of algebraic expressions -/

/-- Whether a computation ends in the state `s` from which it starts, with a result that has the
property `P` if it has one. -/
def StaysAt {α : Type} (s : Evaluator) (x : Eval α) (P : α → Prop) : Prop :=
  Ends x s (fun a t => t = s ∧ P a) fun _ t => t = s

/-- If the state stays as it is at every step, it stays so at the end. -/
theorem StaysAt.bind {α β : Type} {x : Eval α} {f : α → Eval β} {P : α → Prop} {Q : β → Prop}
    (h : StaysAt s x P) (next : ∀ a, P a → StaysAt s (f a) Q) : StaysAt s (x >>= f) Q := by
  refine Ends.bind h ?_
  rintro a _ ⟨rfl, property⟩
  exact next a property

/-- A sign in front of an algebraic value gives an algebraic value and leaves the state alone. -/
theorem staysAt_signed {op : Operator} {operand : Expr} {token : Option Token}
    (h : operand.IsAlgebraic) : StaysAt s (signed op operand token) IsAlgebraic := by
  cases h with
  | @number text t =>
    have computed : StaysAt s (attempt (Numeral.signed op text)) fun _ => True :=
      ends_attempt (fun _ _ => ⟨rfl, trivial⟩) fun _ => rfl
    exact computed.bind fun _ _ => ends_pure ⟨rfl, .number⟩
  | var => exact ends_pure ⟨rfl, .unary .var⟩
  | unary inner => exact ends_pure ⟨rfl, .unary (.unary inner)⟩
  | binary left right => exact ends_pure ⟨rfl, .unary (.binary left right)⟩
  | group all => exact ends_pure ⟨rfl, .unary (.group all)⟩
  | command all => exact ends_pure ⟨rfl, .unary (.command all)⟩

/-- An operation on algebraic values gives an algebraic value and leaves the state alone. -/
theorem staysAt_operation {op : Operator} {lhs rhs : Expr} {token : Option Token}
    (left : lhs.IsAlgebraic) (right : rhs.IsAlgebraic) :
    StaysAt s (operation op lhs rhs token) IsAlgebraic := by
  have kept : StaysAt s (pure (.binary op lhs rhs token)) IsAlgebraic :=
    ends_pure ⟨rfl, .binary left right⟩
  unfold operation
  rw [left.isFunction, right.isFunction, Bool.or_self, if_neg Bool.false_ne_true]
  split
  · exact kept
  · next a t b u _ =>
    have computed : StaysAt s (attempt (Numeral.combined op a b)) fun _ => True :=
      ends_attempt (fun _ _ => ⟨rfl, trivial⟩) fun _ => rfl
    refine computed.bind fun result _ => ?_
    cases result with
    | none => exact kept
    | some text => exact ends_pure ⟨rfl, .number⟩
  · exact kept

/-- A list of expressions that leave the state alone leaves it alone as a whole. -/
theorem staysAt_evaluateAllWith {es : List Expr}
    (each : ∀ e ∈ es, StaysAt s (evaluateWith body room e) IsAlgebraic) :
    StaysAt s (evaluateAllWith body room es) fun vs => ∀ v ∈ vs, v.IsAlgebraic := by
  induction es with
  | nil =>
    rw [evaluateAllWith]
    exact ends_pure ⟨rfl, List.forall_mem_nil _⟩
  | cons e es ih =>
    obtain ⟨first, others⟩ := List.forall_mem_cons.1 each
    rw [evaluateAllWith]
    exact first.bind fun v algebraic => (ih others).bind fun vs all =>
      ends_pure ⟨rfl, List.forall_mem_cons.2 ⟨algebraic, all⟩⟩

/-- Where all bound values are algebraic, so are the values of algebraic expressions. -/
theorem staysAt_evaluateWith (bound : s.environment.AllValues IsAlgebraic) (h : e.IsAlgebraic) :
    StaysAt s (evaluateWith body room e) IsAlgebraic := by
  -- nothing algebraic binds anything, so all parts are evaluated in the state `s`
  induction h generalizing room with
  | number =>
    rw [evaluateWith]
    exact ends_nested rfl fun room => ends_pure ⟨rfl, .number⟩
  | @var name subscripts token =>
    have found : StaysAt s (lookup (.var name subscripts token)) fun value =>
        ∀ v ∈ value, v.IsAlgebraic := by
      refine ends_lookup (fun value eq => ⟨rfl, ?_⟩) fun _ => rfl
      rintro v rfl
      exact bound.of_lookup eq
    rw [evaluateWith]
    refine ends_nested rfl fun room => found.bind fun value algebraic => ends_pure ⟨rfl, ?_⟩
    cases value with
    | none => exact .var
    | some v => exact algebraic v rfl
  | unary _ inner =>
    rw [evaluateWith]
    exact ends_nested rfl fun room => inner.bind fun v algebraic => staysAt_signed algebraic
  | binary _ _ left right =>
    rw [evaluateWith]
    exact ends_nested rfl fun room => left.bind fun v algebraic => right.bind fun w algebraic' =>
      staysAt_operation algebraic algebraic'
  | group _ all =>
    rw [evaluateWith]
    exact ends_nested rfl fun room => (staysAt_evaluateAllWith fun e he => all e he).bind
      fun vs algebraic => ends_pure ⟨rfl, .group algebraic⟩
  | command _ all =>
    rw [evaluateWith]
    exact ends_nested rfl fun room => (staysAt_evaluateAllWith fun e he => all e he).bind
      fun vs algebraic => ends_pure ⟨rfl, .command algebraic⟩

/-! ## Statements -/

/-- A statement leaves what its expression leaves, whether it has a value or not. -/
theorem evaluate_state (e : Expr) (s : Evaluator) :
    (evaluate e s).2 = (evaluateWithin maxLevels (.levels maxLevels) e s).2 := by
  let P (r : Evaluator) : Prop := r = (evaluateWithin maxLevels (.levels maxLevels) e s).2
  refine Ends.state (P := P) ((Ends.of_state (P := P) rfl).bind ?_)
  rintro v _ rfl
  refine ends_requireText_bind ?_ fun _ => rfl
  refine ends_requireText_bind ?_ fun _ => rfl
  exact ends_pure rfl

/-- What can be written out and evaluates to itself is a statement that does so. -/
theorem evaluate_eq_self {text : String} (written : v.tex .oneLine = .ok text)
    (fits : (Room.levels maxLevels).holds v.height = true)
    (h : evaluateWithin maxLevels (.levels maxLevels) v s = (.ok v, s)) :
    evaluate v s = (.ok v, s) := by
  rw [evaluate, evaluateStatement, bind_of_ok h, bind_of_ok (requireText_of_ok fits written),
    bind_of_ok (requireText_of_ok fits written)]
  rfl

/-- Binding the value of an algebraic expression leaves all bound values algebraic, whether it
succeeds or not. -/
theorem isAlgebraic_of_binding (bound : s.environment.AllValues IsAlgebraic) (h : e.IsAlgebraic)
    (target : Expr) (token : Option Token) :
    (evaluateWith body room (.binding target e token) s).2.environment.AllValues IsAlgebraic := by
  let P (r : Evaluator) : Prop := r.environment.AllValues IsAlgebraic
  rw [evaluateWith]
  refine Ends.state (P := P) (ends_nested bound fun room => ?_)
  refine ((staysAt_evaluateWith bound h).mono (fun _ _ h => h) ?_).bind ?_
  · rintro _ _ rfl
    exact bound
  · rintro v r ⟨same, algebraic⟩
    rw [same]
    have none : v.function? = none := Option.isNone_iff_eq_none.1 (by
      simpa [Expr.isFunction] using algebraic.isFunction)
    rw [define, none]
    have made : Ends (bind target v) s (fun _ => P) (fun _ => P) :=
      ends_update (fun env changed => bound.set algebraic changed) fun _ => bound
    refine made.bind fun _ r kept => ?_
    refine ends_requireText_bind ?_ fun _ => kept
    refine ends_requireText_bind ?_ fun _ => kept
    exact ends_pure kept

/-- Where only folded expressions are bound, an algebraic expression that has a value has a folded
one, which is its own value wherever none of its variables is bound. Binding such a value leaves
only folded expressions bound, whether it succeeds or not. -/
theorem isFolded_evaluate (h : e.IsAlgebraic) (bound : s.environment.AllValues IsFolded) :
    (∀ v t, evaluate e s = (.ok v, t) → v.IsFolded ∧ ∀ r : Evaluator,
      (∀ x ∈ v.leaves, x.isVariable = true → r.environment.lookup x = .ok none) →
        evaluate v r = (.ok v, r)) ∧
    ∀ target token, (evaluate (.binding target e token) s).2.environment.AllValues IsFolded := by
  have algebraic : s.environment.AllValues IsAlgebraic :=
    fun scope hs b hb => (bound scope hs b hb).isAlgebraic
  have settled : s.IsSettled := fun scope hs b hb => (bound scope hs b hb).isSettled
  constructor
  · intro v t result
    obtain ⟨evaluated, fits, text, written⟩ := ok_of_evaluate result
    have tree : v.IsAlgebraic := ((staysAt_evaluateWith algebraic h).of_ok evaluated).2
    have final : v.IsSettled := by
      obtain ⟨-, property⟩ := settles_evaluateWithin maxLevels .unbounded e s settled
      exact property v (congrArg Prod.fst evaluated)
    refine ⟨tree.isFolded final, fun r unbound => evaluate_eq_self written fits ?_⟩
    exact evaluateWith_of_unbound tree final unbound fits
  · intro target token scope hs b hb
    rw [evaluate_state] at hs
    have tree : b.2.IsAlgebraic := isAlgebraic_of_binding algebraic h target token scope hs b hb
    have final : b.2.IsSettled := by
      obtain ⟨property, -⟩ :=
        settles_evaluateWithin maxLevels (.levels maxLevels) (.binding target e token) s settled
      exact property scope hs b hb
    exact tree.isFolded final

/-- Where `x` is bound to `y + 1/0`, the value of `-3 + {4^2x}` is `-3 + {16(y + 1/0)}`, in which
the undefined quotient is kept. Where nothing is bound, it is its own value. -/
theorem isFolded_evaluate_quotient :
    let number (text : String) : Expr := .number text none
    let bound : Expr :=
      .binary .plus (.var "y" [] none) (.binary .divide (number "1") (number "0") none) none
    let product (lhs rhs : Expr) : Expr := .group [.binary .juxtaposed lhs rhs none] none
    let s : Evaluator := ⟨⟨[(.var "x" [] none, bound)], []⟩, 0⟩
    let e : Expr := .binary .plus (.unary .minus (number "3") none)
      (product (.binary .power (number "4") (number "2") none) (.var "x" [] none)) none
    let v : Expr := .binary .plus (number "-3") (product (number "16") bound) none
    evaluate e s = (.ok v, s) ∧ v.IsFolded ∧ evaluate v .initial = (.ok v, .initial) ∧
      (evaluate (.binding (.var "z" [] none) e none) s).2.environment.AllValues IsFolded := by
  intro number bound product s e v
  have undefined : Numeral.combined .divide "1" "0" = .ok none := rfl
  have quotient : (Expr.binary .divide (number "1") (number "0") none).IsFolded := by
    refine .binary .number .number ?_
    rintro a t b u ⟨⟩ ⟨⟩ -
    exact undefined
  have all : s.environment.AllValues IsFolded := by
    simp only [s, Environment.AllValues, List.nil_append, List.forall_mem_singleton]
    refine .binary .var quotient ?_
    rintro a t b u ⟨⟩
  have algebraic : e.IsAlgebraic :=
    .binary (.unary .number) (.group (List.forall_mem_singleton.2
      (.binary (.binary .number .number) .var)))
  have result : evaluate e s = (.ok v, s) := rfl
  obtain ⟨value, binding⟩ := isFolded_evaluate algebraic all
  obtain ⟨folded, stable⟩ := value v s result
  exact ⟨result, folded, stable .initial fun x _ _ => rfl, binding _ none⟩

end Evaluation

end TexAlgebra
