import TexAlgebra.Proofs.Computation.Parallel
import TexAlgebra.Proofs.Evaluation.Results
import TexAlgebra.Proofs.Unplaced.Environment
/-!
# Evaluation without places

Evaluating an expression without places, where nothing that is bound has one, does what evaluating
the expression does, without the places (`Evaluation.unplaced_evaluate`): the values, the faults and
the bindings are the same but for where their tokens stand.
-/

namespace TexAlgebra

open TexAlgebra.Expr

/-! ## Faults -/

mutual

/-- The classification with all its tokens at the start of a text. -/
def Classification.unplaced : Classification → Classification
  | .number e => .number e.unplaced
  | .symbolic e => .symbolic e.unplaced
  | .unknown e => .unknown e.unplaced
  | .function f bound => .function f.unplaced (unplacedBound bound)

/-- The bindings with all their tokens at the start of a text. -/
def Classification.unplacedBound : List (Expr × Classification) → List (Expr × Classification)
  | [] => []
  | (x, c) :: rest => (x.unplaced, c.unplaced) :: unplacedBound rest

end

theorem Classification.unplacedBound_eq (bound : Scope Classification) :
    unplacedBound bound = bound.stripped unplaced := by
  induction bound with
  | nil => rfl
  | cons b bound ih =>
    obtain ⟨x, c⟩ := b
    rw [unplacedBound, ih]
    rfl

/-- The cause with all its tokens at the start of a text. -/
def TypeCause.unplaced : TypeCause → TypeCause
  | .notFunction given => .notFunction given.unplaced
  | .badOperand given => .badOperand given.unplaced
  | cause => cause

/-- The cause with all its tokens at the start of a text. -/
def Cause.unplaced : Cause → Cause
  | .typing cause => .typing cause.unplaced
  | cause => cause

/-- The fault with all its tokens at the start of a text. -/
def Fault.unplaced (f : Fault) : Fault := ⟨f.cause.unplaced, f.token.map Token.unplaced⟩

/-- The failure with all its tokens at the start of a text. -/
def Failure.unplaced : Failure → Failure
  | .fault f => .fault f.unplaced
  | .obstacle o => .obstacle o

/-- Whether a computation ran out of room does not depend on places. -/
theorem ranOut_unplaced {α β : Type} (failure : Failure) :
    ranOut (.error failure.unplaced : Except Failure β) =
      ranOut (.error failure : Except Failure α) := by
  cases failure with
  | fault => rfl
  | obstacle o => cases o <;> rfl

/-! ## Evaluators -/

/-- The evaluator with all tokens at the start of a text. -/
def Evaluator.unplaced (s : Evaluator) : Evaluator :=
  ⟨s.environment.stripped Expr.unplaced, s.anonymous⟩

namespace Evaluation

variable {α β γ δ : Type} {f : α → β} {g : γ → δ} {x : Eval α} {y : Eval β} {room : Room}

/-- Whether `y` does on states without places what `x` does, where `f` takes the places out of its
results. -/
abbrev Unplaces (f : α → β) (x : Eval α) (y : Eval β) : Prop :=
  Parallel (fun s t : Evaluator => t = s.unplaced) (fun a b => b = f a)
    (fun e e' : Failure => e' = e.unplaced) x y

theorem unplaces_pure (f : α → β) (a : α) : Unplaces f (pure a) (pure (f a)) := parallel_pure rfl

/-- A sequence does without places what its steps do. -/
theorem Unplaces.bind {h : α → Eval γ} {k : β → Eval δ} (first : Unplaces f x y)
    (next : ∀ a, Unplaces g (h a) (k (f a))) : Unplaces g (x >>= h) (y >>= k) := by
  refine Parallel.bind first ?_
  rintro a _ rfl
  exact next a

/-- A refusal drops the place of its token. -/
theorem unplaces_refuse (f : α → β) (cause : EvaluationCause) (token : Option Token) :
    Unplaces f (refuse cause token) (refuse cause (token.map Token.unplaced)) :=
  parallel_throw rfl

/-- The room does not depend on places. -/
theorem unplaces_nested {step : Room → Eval α} {step' : Room → Eval β}
    (h : ∀ room, Unplaces f (step room) (step' room)) :
    Unplaces f (room.nested (throw (.obstacle .tooDeep)) step)
      (room.nested (throw (.obstacle .tooDeep)) step') :=
  room.nested_rel (R := Unplaces f) (parallel_throw rfl) h

/-- What does not look at the state does without places what it does. -/
theorem unplaces_attempt (f : α → β) (r : Except Obstacle α) :
    Unplaces f (attempt r) (attempt (r.map f)) := by
  cases r with
  | error o => exact parallel_throw rfl
  | ok a => exact parallel_pure rfl

/-- An expression is written out without places as it is with them. -/
theorem unplaces_requireText (room : Room) (style : Style) (e : Expr) :
    Unplaces id (requireText room style e) (requireText room style e.unplaced) := by
  refine Unplaces.bind (f := id) ?_ fun _ => unplaces_pure _ ()
  rw [texWithin_unplaced]
  have same := unplaces_attempt id (e.texWithin room style)
  rwa [Except.map_id] at same

/-- A lookup finds without places what it finds, without its places. -/
theorem unplaces_lookup (x : Expr) :
    Unplaces (Option.map Expr.unplaced) (lookup x) (lookup x.unplaced) := by
  rintro s _ rfl
  have found := unplaces_attempt (Option.map Expr.unplaced) (s.environment.lookup x) s _ rfl
  rw [← Environment.lookup_stripped] at found
  exact found

/-- A change of the environment does without places what it does. -/
theorem unplaces_update {change change' : Environment Expr → Except Obstacle (Environment Expr)}
    (same : ∀ env, change' (env.stripped Expr.unplaced) =
      (change env).map (Environment.stripped Expr.unplaced)) :
    Unplaces id (update change) (update change') := by
  rintro s _ rfl
  cases changed : change s.environment with
  | error o =>
    have changed' : change' s.unplaced.environment = .error o := by
      rw [Evaluator.unplaced, same, changed]
      rfl
    rw [update_of_error changed, update_of_error changed']
    exact ⟨rfl, rfl⟩
  | ok env =>
    have changed' : change' s.unplaced.environment = .ok (env.stripped Expr.unplaced) := by
      rw [Evaluator.unplaced, same, changed]
      rfl
    rw [update_of_ok changed, update_of_ok changed']
    exact ⟨rfl, rfl⟩

/-- A binding is made without places. -/
theorem unplaces_bind (x value : Expr) :
    Unplaces id (bind x value) (bind x.unplaced value.unplaced) :=
  unplaces_update fun env => env.set_stripped Expr.unplaced x value

/-- A scope does without places what its action does. -/
theorem unplaces_inScope {action : Eval α} {action' : Eval β} (bindings : List (Expr × Expr))
    (h : Unplaces f action action') :
    Unplaces f (inScope room bindings action)
      (inScope room (bindings.map unplacedPair) action') := by
  refine Parallel.between fun s t related => ⟨fun s t => t = s.unplaced, ?_, ?_, ?_⟩
  · subst related
    rfl
  · have pairs : bindings.map unplacedPair = Scope.stripped Expr.unplaced bindings := by
      rw [Scope.stripped, Scope.unplaced, Scope.mapped, List.map_map]
      rfl
    rw [pairs]
    exact (unplaces_update fun env => env.setAll_stripped Expr.unplaced bindings).bind fun _ => h
  · rintro s _ rfl
    have left : Evaluator.mk s.unplaced.environment.leave s.anonymous =
        (Evaluator.mk s.environment.leave s.anonymous).unplaced :=
      congrArg (Evaluator.mk · s.anonymous) (s.environment.stripped_leave Expr.unplaced)
    refine ⟨fun _ _ _ => left, ?_⟩
    rintro e _ rfl
    rw [@ranOut_unplaced α β e]
    by_cases out : (ranOut (.error e : Except Failure α) && !room.holds 1) = true
    · rw [if_pos out, if_pos out]
    · rw [if_neg out, if_neg out]
      exact left

/-! ## Operators -/

/-- A sign gives without places what it gives. -/
theorem unplaces_signed (op : Operator) (operand : Expr) (token : Option Token) :
    Unplaces Expr.unplaced (signed op operand token)
      (signed op operand.unplaced (token.map Token.unplaced)) := by
  cases operand with
  | number text t =>
    have same := unplaces_attempt id (Numeral.signed op text)
    rw [Except.map_id] at same
    refine same.bind fun text => parallel_pure ?_
    rw [unplaced_number, map_orElse]
    rfl
  | function =>
    rw [unplaced_function]
    exact unplaces_refuse _ _ _
  | _ => exact unplaces_pure Expr.unplaced (.unary op _ token)

/-- An operation gives without places what it gives. -/
theorem unplaces_operation (op : Operator) (lhs rhs : Expr) (token : Option Token) :
    Unplaces Expr.unplaced (operation op lhs rhs token)
      (operation op lhs.unplaced rhs.unplaced (token.map Token.unplaced)) := by
  cases plain : lhs.isFunction || rhs.isFunction with
  | true =>
    unfold operation
    rw [isFunction_unplaced, isFunction_unplaced, if_pos plain, if_pos plain]
    exact unplaces_refuse _ _ _
  | false =>
    have plain' : (lhs.unplaced.isFunction || rhs.unplaced.isFunction) = false := by
      rw [isFunction_unplaced, isFunction_unplaced, plain]
    by_cases kept : op = .equals ∨ (lhs.isNumber && rhs.isNumber) = false
    · have kept' : op = .equals ∨ (lhs.unplaced.isNumber && rhs.unplaced.isNumber) = false := by
        rwa [isNumber_unplaced, isNumber_unplaced]
      rw [operation_kept token plain kept, operation_kept _ plain' kept']
      exact unplaces_pure Expr.unplaced (.binary op lhs rhs token)
    · obtain ⟨operator, numbers⟩ := not_or.1 kept
      rw [Bool.not_eq_false, Bool.and_eq_true] at numbers
      obtain ⟨a, t, rfl⟩ := exists_of_isNumber numbers.1
      obtain ⟨b, u, rfl⟩ := exists_of_isNumber numbers.2
      rw [unplaced_number, unplaced_number, operation_numbers operator, operation_numbers operator]
      have same := unplaces_attempt id (Numeral.combined op a b)
      rw [Except.map_id] at same
      refine same.bind fun result => ?_
      cases result with
      | none => exact unplaces_pure Expr.unplaced (.binary op (.number a t) (.number b u) token)
      | some text =>
        refine parallel_pure ?_
        rw [unplaced_number, map_orElse]

/-! ## Calls -/

/-- A fresh name is numbered without places as it is with them. -/
theorem unplaces_freshName (token : Option Token) :
    Unplaces Expr.unplaced (freshName token) (freshName (token.map Token.unplaced)) := by
  rintro s _ rfl
  exact ⟨rfl, rfl⟩

/-- A parameter and its new name, with all tokens at the start of a text. -/
def unplacedParameter (r : Expr × Option Expr) : Expr × Option Expr :=
  (r.1.unplaced, r.2.map Expr.unplaced)

/-- Parameters get new names without places where they get them with places. -/
theorem unplaces_freshParameters (arguments ps : List Expr) :
    Unplaces (List.map unplacedParameter) (freshParameters arguments ps)
      (freshParameters (arguments.map Expr.unplaced) (ps.map Expr.unplaced)) := by
  induction ps with
  | nil => exact unplaces_pure _ _
  | cons p ps ih =>
    have same := unplaces_attempt id (p.occursInAny arguments)
    rw [Except.map_id] at same
    have later (name : Option Expr) : Unplaces (List.map unplacedParameter)
        (do return (p, name) :: (← freshParameters arguments ps))
        (do return (p.unplaced, name.map Expr.unplaced) ::
          (← freshParameters (arguments.map Expr.unplaced) (ps.map Expr.unplaced))) :=
      Unplaces.bind ih fun rest => unplaces_pure (List.map unplacedParameter) ((p, name) :: rest)
    rw [List.map_cons, freshParameters, freshParameters, occursInAny_unplaced]
    refine same.bind fun taken => ?_
    rw [token_unplaced]
    cases taken with
    | true =>
      have named : Unplaces (Option.map Expr.unplaced) (some <$> freshName p.token)
          (some <$> freshName (p.token.map Token.unplaced)) :=
        (unplaces_freshName p.token).bind fun name => unplaces_pure _ (some name)
      exact named.bind later
    | false => exact (unplaces_pure (Option.map Expr.unplaced) none).bind later

/-- What is left of a function under a fresh name, given the remaining parameters with their new
names. -/
def leftOver (f : Function) (name : Expr) (arguments : List Expr)
    (remaining : List (Expr × Option Expr)) (token : Option Token) : Function where
  form := .curried
  name := name
  parameters := remaining.map fun r => r.2.getD r.1
  head := token
  body := f.body.substitute
    (f.parameters.zip arguments ++ remaining.filterMap fun r => r.2.map (r.1, ·))
  closed := f.closed ++ f.parameters.zip arguments
  token := token

theorem zip_unplaced (f : Function) (arguments : List Expr) :
    f.unplaced.parameters.zip (arguments.map Expr.unplaced) =
      (f.parameters.zip arguments).map unplacedPair :=
  List.zip_map

/-- What is left of a function loses its places part by part. -/
theorem unplaced_leftOver (f : Function) (name : Expr) (arguments : List Expr)
    (remaining : List (Expr × Option Expr)) (token : Option Token) :
    (leftOver f name arguments remaining token).unplaced =
      leftOver f.unplaced name.unplaced (arguments.map Expr.unplaced)
        (remaining.map unplacedParameter) (token.map Token.unplaced) := by
  have chosen : (remaining.map unplacedParameter).map (fun r => r.2.getD r.1) =
      (remaining.map fun r => r.2.getD r.1).map Expr.unplaced := by
    rw [List.map_map, List.map_map]
    refine List.map_congr_left fun r _ => ?_
    obtain ⟨p, q⟩ := r
    cases q <;> rfl
  have renamed : (remaining.map unplacedParameter).filterMap (fun r => r.2.map (r.1, ·)) =
      (remaining.filterMap fun r => r.2.map (r.1, ·)).map unplacedPair := by
    rw [List.filterMap_map, List.map_filterMap]
    refine List.filterMap_congr fun r _ => ?_
    obtain ⟨p, q⟩ := r
    cases q <;> rfl
  rw [leftOver, leftOver, zip_unplaced, chosen, renamed]
  simp only [Function.unplaced, substitute_unplaced, List.map_append]

/-- A partial application leaves without places what it leaves. -/
theorem unplaces_curry (f : Function) (arguments : List Expr) (token : Option Token) :
    Unplaces Expr.unplaced (curry room f arguments token)
      (curry room f.unplaced (arguments.map Expr.unplaced) (token.map Token.unplaced)) := by
  refine (unplaces_freshName token).bind fun name => ?_
  have parameters := unplaces_freshParameters arguments (f.parameters.drop arguments.length)
  rw [List.map_drop] at parameters
  rw [List.length_map]
  refine parameters.bind fun remaining => ?_
  have written := unplaces_requireText room .display f.prototype
  have written' :=
    unplaces_requireText room .oneLine (leftOver f name arguments remaining token).toExpr
  rw [Function.unplaced_prototype] at written
  rw [Function.unplaced_toExpr, unplaced_leftOver] at written'
  refine written.bind fun _ => Unplaces.bind written' fun _ => parallel_pure ?_
  exact (congrArg Function.toExpr (unplaced_leftOver f name arguments remaining token)).symm.trans
    (Function.unplaced_toExpr _).symm

variable {body body' : Room → Expr → Eval Expr}

/-- A call gives without places what it gives. -/
theorem unplaces_apply
    (bodies : ∀ (room : Room) (e : Expr),
      Unplaces Expr.unplaced (body room e) (body' room e.unplaced)) (callee : Expr)
    (arguments : List Expr) (token : Option Token) :
    Unplaces Expr.unplaced (apply body room callee arguments token)
      (apply body' room callee.unplaced (arguments.map Expr.unplaced)
        (token.map Token.unplaced)) := by
  refine (unplaces_lookup callee).bind fun value => ?_
  have functions : (value.map Expr.unplaced).bind function? =
      (value.bind function?).map Function.unplaced := by
    cases value with
    | none => rfl
    | some v => exact function?_unplaced v
  rw [functions]
  cases value.bind function? with
  | none =>
    refine parallel_pure ?_
    rw [unplaced_call]
  | some f =>
    dsimp only [Option.map_some]
    rw [Function.arity_unplaced, List.length_map]
    split
    · exact unplaces_refuse _ _ _
    · split
      · rw [zip_unplaced]
        exact unplaces_inScope _ (bodies room f.body)
      · exact unplaces_curry f arguments token

/-- A definition binds without places what it binds. -/
theorem unplaces_define (target value : Expr) (token : Option Token) :
    Unplaces Expr.unplaced (define room target value token)
      (define room target.unplaced value.unplaced (token.map Token.unplaced)) := by
  unfold define
  rw [function?_unplaced]
  cases value.function? with
  | none =>
    refine Unplaces.bind (unplaces_bind target value) fun _ => ?_
    refine Unplaces.bind (unplaces_requireText _ .display target) fun _ => ?_
    refine Unplaces.bind (unplaces_requireText _ .oneLine value) fun _ => ?_
    exact unplaces_pure Expr.unplaced (.binding target value token)
  | some f =>
    have bound := unplaces_bind target (f.renamed target).toExpr
    rw [Function.unplaced_toExpr, Function.unplaced_renamed] at bound
    refine Unplaces.bind bound fun _ => parallel_pure ?_
    rw [Function.unplaced_toExpr, Function.unplaced_renamed]

/-! ## Expressions -/

/-- The expressions of a list give without places what they give. -/
theorem unplaces_evaluateAllWith {es : List Expr}
    (all : ∀ e ∈ es, Unplaces Expr.unplaced (evaluateWith body room e)
      (evaluateWith body' room e.unplaced)) :
    Unplaces (List.map Expr.unplaced) (evaluateAllWith body room es)
      (evaluateAllWith body' room (es.map Expr.unplaced)) := by
  induction es with
  | nil =>
    rw [List.map_nil, evaluateAllWith, evaluateAllWith]
    exact unplaces_pure _ []
  | cons e es ih =>
    rw [List.map_cons, evaluateAllWith, evaluateAllWith]
    refine Unplaces.bind (all e List.mem_cons_self) fun v => ?_
    exact Unplaces.bind (ih fun e he => all e (List.mem_cons_of_mem _ he)) fun vs =>
      unplaces_pure (List.map Expr.unplaced) (v :: vs)

/-- An expression gives without places what it gives, with the bodies of functions given. -/
theorem unplaces_evaluateWith
    (bodies : ∀ (room : Room) (e : Expr),
      Unplaces Expr.unplaced (body room e) (body' room e.unplaced)) (e : Expr) :
    Unplaces Expr.unplaced (evaluateWith body room e) (evaluateWith body' room e.unplaced) := by
  induction e using parts_induction generalizing room with
  | number text t =>
    rw [unplaced_number, evaluateWith, evaluateWith]
    exact unplaces_nested fun room => unplaces_pure Expr.unplaced (.number text t)
  | var name subscripts t _ =>
    have found := unplaces_lookup (.var name subscripts t)
    rw [unplaced_var] at found
    rw [unplaced_var, evaluateWith, evaluateWith]
    refine unplaces_nested fun room => Unplaces.bind found fun value => parallel_pure ?_
    cases value with
    | none => exact (unplaced_var name subscripts t).symm
    | some v => rfl
  | unary op operand t inner =>
    rw [unplaced_unary, evaluateWith, evaluateWith]
    exact unplaces_nested fun room => Unplaces.bind inner fun v => unplaces_signed op v t
  | binary op lhs rhs t left right =>
    rw [unplaced_binary, evaluateWith, evaluateWith]
    exact unplaces_nested fun room =>
      Unplaces.bind left fun l => Unplaces.bind right fun r => unplaces_operation op l r t
  | group items t all =>
    rw [unplaced_group, evaluateWith, evaluateWith]
    refine unplaces_nested fun room =>
      Unplaces.bind (unplaces_evaluateAllWith fun e he => all e he) fun vs => parallel_pure ?_
    rw [unplaced_group]
  | command name arguments t all =>
    rw [unplaced_command, evaluateWith, evaluateWith]
    refine unplaces_nested fun room =>
      Unplaces.bind (unplaces_evaluateAllWith fun e he => all e he) fun vs => parallel_pure ?_
    rw [unplaced_command]
  | block name arguments statements t all =>
    rw [unplaced_block, evaluateWith, evaluateWith]
    refine unplaces_nested fun room =>
      Unplaces.bind (unplaces_evaluateAllWith fun e he => all e he) fun vs => parallel_pure ?_
    rw [unplaced_block]
  | prototype name parameters t _ _ =>
    rw [unplaced_prototype, evaluateWith, evaluateWith]
    exact unplaces_nested fun room => unplaces_refuse _ _ _
  | function form name parameters head inner closed t _ _ _ _ =>
    have bound := unplaces_bind name (.function form name parameters head inner closed t)
    have written (room : Room) :=
      unplaces_requireText room .display (.prototype name parameters head)
    have same := unplaced_function name inner parameters t form head closed
    rw [same] at bound
    simp only [unplaced_prototype] at written
    rw [same, evaluateWith, evaluateWith]
    refine unplaces_nested fun room => Unplaces.bind bound fun _ =>
      Unplaces.bind (written room) fun _ => parallel_pure ?_
    rw [same]
  | call callee arguments t _ all =>
    rw [unplaced_call, evaluateWith, evaluateWith]
    exact unplaces_nested fun room =>
      Unplaces.bind (unplaces_evaluateAllWith fun e he => all e he) fun vs =>
        unplaces_apply bodies callee vs t
  | binding target value t _ inner =>
    rw [unplaced_binding, evaluateWith, evaluateWith]
    exact unplaces_nested fun room => Unplaces.bind inner fun v => unplaces_define target v t

/-- An expression gives without places what it gives, however deep it goes. -/
theorem unplaces_evaluateWithin (depth : Nat) (room : Room) (e : Expr) :
    Unplaces Expr.unplaced (evaluateWithin depth room e)
      (evaluateWithin depth room e.unplaced) := by
  induction depth generalizing room e with
  | zero => exact parallel_throw rfl
  | succ depth ih => exact unplaces_evaluateWith ih e

/-- Evaluation without places is evaluation, without the places. -/
theorem unplaces_evaluate (e : Expr) :
    Unplaces Expr.unplaced (evaluate e) (evaluate e.unplaced) := by
  refine Unplaces.bind (unplaces_evaluateWithin maxLevels (.levels maxLevels) e) fun v => ?_
  refine Unplaces.bind (unplaces_requireText _ .oneLine e) fun _ => ?_
  refine Unplaces.bind (unplaces_requireText _ .oneLine v) fun _ => ?_
  exact unplaces_pure Expr.unplaced v

end Evaluation

/-- Whether a variable is bound to a function does not depend on places. -/
theorem Evaluator.knowsFunction_unplaced (s : Evaluator) (x : Expr) :
    s.unplaced.knowsFunction x.unplaced = s.knowsFunction x := by
  rw [knowsFunction, knowsFunction, unplaced, Environment.lookup_stripped]
  cases s.environment.lookup x with
  | error o => rfl
  | ok value =>
    cases value with
    | none => rfl
    | some v => exact isFunction_unplaced v

end TexAlgebra
