import TexAlgebra.Evaluation
import TexAlgebra.Typing
import TexAlgebra.Proofs.Environment.Extended
import TexAlgebra.Proofs.Evaluation.Results
import TexAlgebra.Proofs.Typing.Results
/-!
# What is bound on the way

Definitions can stand anywhere in an expression. `Expr.definitions` lists the variables that they
bind, in the order in which they are met. Evaluating or checking an expression extends the
environment by these and no others, as far as it gets (`Evaluation.binds_evaluateWithin`,
`Typing.binds_classifyWithin`). In particular nothing stays that is bound during a call, neither the
parameters nor what the body of the function defines, unless there is too little room to close the
scope of the call: then such scopes are still open on top of what is bound otherwise.
-/

namespace TexAlgebra

namespace Expr

mutual

/-- The variables that are bound when an expression is visited, in order. What the body of a
function defines is not among them. -/
def definitions : Expr → List Expr
  | unary _ operand _ => definitions operand
  | binary _ lhs rhs _ => definitions lhs ++ definitions rhs
  | group items _ => definitionsOfAll items
  | command _ arguments _ => definitionsOfAll arguments
  | block _ _ statements _ => definitionsOfAll statements
  | function _ name _ _ _ _ _ => [name]
  | call callee arguments _ => definitions callee ++ definitionsOfAll arguments
  | binding target value _ => definitions value ++ [target]
  | _ => []

/-- The variables that are bound when several expressions are visited, in order. -/
def definitionsOfAll : List Expr → List Expr
  | [] => []
  | e :: es => definitions e ++ definitionsOfAll es

end

/-- Expressions that define nothing define nothing together. -/
theorem definitionsOfAll_eq_nil {es : List Expr} (plain : ∀ e ∈ es, e.definitions = []) :
    definitionsOfAll es = [] := by
  induction es with
  | nil => rfl
  | cons e es ih =>
    obtain ⟨none, others⟩ := List.forall_mem_cons.1 plain
    rw [definitionsOfAll, none, ih others, List.nil_append]

end Expr

/-! ## Computations that bind variables -/

section

variable {σ α β γ : Type} {view : σ → Environment γ} {xs ys : List Expr}
  {x : ExceptT Failure (StateM σ) α}

/-- Whether a computation that failed may have changed an environment from `env` to `env'` by then:
some of the variables `xs` are bound, in their order, and scopes have stayed open on top of that if
there was too little room. -/
def Failure.Leaves (failure : Failure) (xs : List Expr) (env env' : Environment γ) : Prop :=
  ∃ bound : Environment γ, env.Extends xs bound ∧ bound.Opened env' ∧
    (failure ≠ .obstacle .tooDeep → env' = bound)

namespace Failure

variable {failure : Failure} {env env' env'' : Environment γ}

/-- A failure may leave all variables bound. -/
theorem leaves_of_extends (h : env.Extends xs env') : failure.Leaves xs env env' :=
  ⟨env', h, .refl _, fun _ => rfl⟩

/-- A failure that leaves some variables bound leaves some of more variables bound. -/
theorem Leaves.mono (h : failure.Leaves xs env env') (sub : xs.Sublist ys) :
    failure.Leaves ys env env' := by
  obtain ⟨bound, extended, rest⟩ := h
  exact ⟨bound, extended.mono sub, rest⟩

/-- A failure behind a step that binds variables leaves those bound as well. -/
theorem Leaves.after (first : env.Extends xs env') (h : failure.Leaves ys env' env'') :
    failure.Leaves (xs ++ ys) env env'' := by
  obtain ⟨bound, extended, rest⟩ := h
  exact ⟨bound, first.append extended, rest⟩

/-- A failure leaves no scope open unless it is for want of room. -/
theorem Leaves.extends (h : failure.Leaves xs env env') (other : failure ≠ .obstacle .tooDeep) :
    env.Extends xs env' := by
  obtain ⟨bound, extended, -, same⟩ := h
  rw [same other]
  exact extended

/-- Once all calls are given up, it makes no difference that scopes had stayed open. -/
theorem Leaves.unwind (h : failure.Leaves xs env env') (rest : env.depth = 0) :
    env.Extends xs env'.unwind := by
  obtain ⟨bound, extended, opened, -⟩ := h
  rw [opened.unwind (extended.sameOutside.depth.trans rest)]
  exact extended

/-- However a computation fails in a new scope, that scope is still there. -/
theorem Leaves.innermost {entered : Environment γ} {bindings : Scope γ}
    (made : env.push.setAll bindings = .ok entered) (h : failure.Leaves xs entered env') :
    ∃ (s : Scope γ) (scopes : List (Scope γ)),
      env' = ⟨env.globals, scopes ++ s :: env.scopes⟩ := by
  obtain ⟨_, extended, ⟨scopes, rfl⟩, -⟩ := h
  obtain ⟨s, rfl⟩ := extended.innermost made
  exact ⟨s, scopes, rfl⟩

/-- A scope that was opened for a computation and is left after its failure leaves nothing behind
but scopes that had stayed open. -/
theorem Leaves.leave {entered : Environment γ} {bindings : Scope γ}
    (made : env.push.setAll bindings = .ok entered) (h : failure.Leaves xs entered env') :
    failure.Leaves [] env env'.leave := by
  obtain ⟨bound, extended, ⟨scopes, rfl⟩, same⟩ := h
  obtain ⟨s, rfl⟩ := extended.innermost made
  refine ⟨env, .refl _ _, ?_, fun other => ?_⟩
  · cases scopes with
    | nil => exact .refl _
    | cons t scopes => exact ⟨scopes ++ [s], by simp [Environment.leave]⟩
  · rw [same other]
    rfl

/-- Where it is not left, it has stayed open as well. -/
theorem Leaves.open {entered : Environment γ} {bindings : Scope γ}
    (made : env.push.setAll bindings = .ok entered)
    (h : (obstacle .tooDeep).Leaves xs entered env') :
    (obstacle .tooDeep).Leaves [] env env' := by
  obtain ⟨s, scopes, rfl⟩ := h.innermost made
  exact ⟨env, .refl _ _, ⟨scopes ++ [s], by simp⟩, fun other => absurd rfl other⟩

end Failure

/-- Whether all that a computation does to an environment is to bind some of the variables `xs`, in
their order, also when it fails, apart from scopes that have stayed open then. -/
def Binds (view : σ → Environment γ) (xs : List Expr) (x : ExceptT Failure (StateM σ) α) : Prop :=
  ∀ s, Ends x s (fun _ t => (view s).Extends xs (view t)) fun failure t =>
    failure.Leaves xs (view s) (view t)

theorem binds_pure {a : α} : Binds view xs (pure a : ExceptT Failure (StateM σ) α) :=
  fun _ => ends_pure (.refl _ _)

/-- A failure binds nothing. -/
theorem binds_throw {failure : Failure} :
    Binds view xs (throw failure : ExceptT Failure (StateM σ) α) :=
  fun _ => ends_throw (Failure.leaves_of_extends (.refl _ _))

/-- A step one level further down binds no more than the step itself. -/
theorem binds_nested {room : Room} {failure : Failure}
    {step : Room → ExceptT Failure (StateM σ) α} (h : ∀ room, Binds view xs (step room)) :
    Binds view xs (room.nested (throw failure) step) :=
  fun s => ends_nested (Failure.leaves_of_extends (.refl _ _)) fun room => h room s

/-- What binds some variables at most binds some of more variables at most. -/
theorem Binds.mono (h : Binds view xs x) (sub : xs.Sublist ys) : Binds view ys x :=
  fun s => (h s).mono (fun _ _ extended => extended.mono sub) fun _ _ left => left.mono sub

/-- A sequence binds what its steps bind, in their order. -/
theorem Binds.bind {f : α → ExceptT Failure (StateM σ) β} (h : Binds view xs x)
    (next : ∀ a, Binds view ys (f a)) : Binds view (xs ++ ys) (x >>= f) := by
  intro s
  have first := (h s).mono (fun _ _ h => h) fun _ _ h => h.mono (List.sublist_append_left xs ys)
  refine first.bind fun a t extended => ?_
  exact (next a t).mono (fun _ _ later => extended.append later) fun _ _ later =>
    later.after extended

/-- A computation that binds nothing may come first. -/
theorem Binds.after {f : α → ExceptT Failure (StateM σ) β} (h : Binds view [] x)
    (next : ∀ a, Binds view xs (f a)) : Binds view xs (x >>= f) :=
  h.bind next

/-- A computation that binds nothing may come last. -/
theorem Binds.before {f : α → ExceptT Failure (StateM σ) β} (h : Binds view xs x)
    (next : ∀ a, Binds view [] (f a)) : Binds view xs (x >>= f) := by
  have both := h.bind next
  rwa [List.append_nil] at both

/-- How the environment of a state differs after a computation that had enough room. -/
theorem Binds.extends (h : Binds view xs x) (s : σ) (enough : ranOut (x s).1 = false) :
    (view s).Extends xs (view (x s).2) := by
  have ended := h s
  rw [Ends] at ended
  split at ended
  · next result =>
    rw [result]
    exact ended
  · next failure t result =>
    rw [result] at enough ⊢
    refine ended.extends ?_
    rintro rfl
    cases enough

/-- Whatever came of a computation in a new scope, there is a scope then that can be closed. -/
theorem Binds.pop_eq (h : Binds view xs x) {env : Environment γ} {bindings : Scope γ} {s : σ}
    (made : env.push.setAll bindings = .ok (view s)) :
    (view (x s).2).pop = .ok (view (x s).2).leave := by
  have ended := h s
  rw [Ends] at ended
  split at ended
  · next result =>
    obtain ⟨scope, same⟩ := ended.innermost made
    rw [result, same]
    rfl
  · next result =>
    obtain ⟨scope, scopes, same⟩ := ended.innermost made
    rw [result, same]
    cases scopes <;> rfl

end

open Expr (definitions definitionsOfAll)

variable {α : Type}

/-! ## Evaluation -/

namespace Evaluation

/-- What does not look at the state binds nothing. -/
theorem binds_attempt (x : Except Obstacle α) : Binds Evaluator.environment [] (attempt x) :=
  fun _ => ends_attempt (fun _ _ => .refl _ _) fun _ => Failure.leaves_of_extends (.refl _ _)

theorem binds_refuse {cause : EvaluationCause} {token : Option Token} :
    Binds Evaluator.environment [] (refuse cause token : Eval α) :=
  binds_throw

/-- To write an expression out binds nothing. -/
theorem binds_requireText (room : Room) (style : Style) (e : Expr) :
    Binds Evaluator.environment [] (requireText room style e) :=
  fun _ => ends_requireText (.refl _ _) fun _ => Failure.leaves_of_extends (.refl _ _)

/-- A lookup binds nothing. -/
theorem binds_lookup (x : Expr) : Binds Evaluator.environment [] (lookup x) :=
  fun _ => ends_lookup (fun _ _ => .refl _ _) fun _ => Failure.leaves_of_extends (.refl _ _)

/-- A binding binds its variable, unless it fails. -/
theorem binds_bind (x value : Expr) : Binds Evaluator.environment [x] (bind x value) :=
  fun _ => ends_update (fun _ changed => Environment.extends_set changed) fun _ =>
    Failure.leaves_of_extends (.refl _ _)

/-- What is bound in a new scope is lost with it, if it is not left open. -/
theorem binds_inScope {room : Room} {xs : List Expr} {bindings : List (Expr × Expr)}
    {action : Eval α} (h : Binds Evaluator.environment xs action) :
    Binds Evaluator.environment [] (inScope room bindings action) := by
  refine fun s => ends_inScope (fun env entered => ?_)
    (fun _ => Failure.leaves_of_extends (.refl _ _)) ?_
  · refine (h _).mono (fun a t extended => ?_) fun failure t left => ⟨left.leave entered, ?_⟩
    · show s.environment.Extends [] t.environment.leave
      rw [extended.leave entered]
      exact .refl _ _
    · rintro rfl -
      exact left.open entered
  · exact ⟨_, .refl _ _, ⟨[[]], rfl⟩, fun other => absurd rfl other⟩

/-- A sign binds nothing. -/
theorem binds_signed (op : Operator) (operand : Expr) (token : Option Token) :
    Binds Evaluator.environment [] (signed op operand token) := by
  cases operand with
  | function => exact binds_refuse
  | number => exact (binds_attempt _).after fun _ => binds_pure
  | _ => exact binds_pure

/-- An operation binds nothing. -/
theorem binds_operation (op : Operator) (lhs rhs : Expr) (token : Option Token) :
    Binds Evaluator.environment [] (operation op lhs rhs token) := by
  unfold operation
  split
  · exact binds_refuse
  split
  · exact binds_pure
  · refine (binds_attempt _).after fun result => ?_
    cases result <;> exact binds_pure
  · exact binds_pure

/-- A fresh name is not bound. -/
theorem binds_freshName (token : Option Token) :
    Binds Evaluator.environment [] (freshName token) := by
  intro s
  show s.environment.Extends [] s.environment
  exact .refl _ _

/-- New names for parameters are not bound. -/
theorem binds_freshParameters (arguments ps : List Expr) :
    Binds Evaluator.environment [] (freshParameters arguments ps) := by
  induction ps with
  | nil => exact binds_pure
  | cons p ps ih =>
    refine (binds_attempt _).after fun taken => ?_
    have rest : ∀ name : Option Expr, Binds Evaluator.environment []
        (freshParameters arguments ps >>= fun rest => pure ((p, name) :: rest)) :=
      fun _ => ih.after fun _ => binds_pure
    cases taken with
    | true =>
      have named : Binds Evaluator.environment [] (some <$> freshName p.token) :=
        (binds_freshName p.token).after fun _ => binds_pure
      exact named.after rest
    | false => exact rest none

/-- A partial application binds nothing. -/
theorem binds_curry (room : Room) (f : Function) (arguments : List Expr) (token : Option Token) :
    Binds Evaluator.environment [] (curry room f arguments token) :=
  (binds_freshName _).after fun _ =>
    (binds_freshParameters _ _).after fun _ =>
      (binds_requireText _ _ _).after fun _ =>
        (binds_requireText _ _ _).after fun _ => binds_pure

variable {body : Room → Expr → Eval Expr}

/-- Nothing that a call binds stays bound after it. -/
theorem binds_apply
    (called : ∀ room e, Binds Evaluator.environment e.definitions (body room e)) (room : Room)
    (callee : Expr) (arguments : List Expr) (token : Option Token) :
    Binds Evaluator.environment [] (apply body room callee arguments token) := by
  refine (binds_lookup callee).after fun found => ?_
  split
  · exact binds_pure
  · next f _ =>
    split
    · exact binds_refuse
    split
    · exact binds_inScope (called room f.body)
    · exact binds_curry room f arguments token

/-- A definition binds its left side, for the value of the right side is at hand. -/
theorem binds_define (room : Room) (target value : Expr) (token : Option Token) :
    Binds Evaluator.environment [target] (define room target value token) := by
  unfold define
  split
  · exact (binds_bind _ _).before fun _ => binds_pure
  · exact (binds_bind _ _).before fun _ =>
      (binds_requireText _ _ _).after fun _ =>
        (binds_requireText _ _ _).after fun _ => binds_pure

mutual

/-- Evaluation binds what the expression defines. Whatever is bound in a call goes to a scope of its
own. -/
theorem binds_evaluateWith
    (called : ∀ room e, Binds Evaluator.environment e.definitions (body room e)) (room : Room)
    (e : Expr) : Binds Evaluator.environment e.definitions (evaluateWith body room e) := by
  cases e with
  | number =>
    rw [evaluateWith]
    exact binds_nested fun _ => binds_pure
  | var =>
    rw [evaluateWith]
    exact binds_nested fun _ => (binds_lookup _).after fun _ => binds_pure
  | unary op operand token =>
    rw [evaluateWith, definitions]
    exact binds_nested fun room =>
      (binds_evaluateWith called room operand).before fun v => binds_signed op v token
  | binary op lhs rhs token =>
    rw [evaluateWith, definitions]
    exact binds_nested fun room =>
      (binds_evaluateWith called room lhs).bind fun v =>
        (binds_evaluateWith called room rhs).before fun w => binds_operation op v w token
  | group items token =>
    rw [evaluateWith, definitions]
    exact binds_nested fun room =>
      (binds_evaluateAllWith called room items).before fun _ => binds_pure
  | command name arguments token =>
    rw [evaluateWith, definitions]
    exact binds_nested fun room =>
      (binds_evaluateAllWith called room arguments).before fun _ => binds_pure
  | block name arguments statements token =>
    rw [evaluateWith, definitions]
    exact binds_nested fun room =>
      (binds_evaluateAllWith called room statements).before fun _ => binds_pure
  | prototype =>
    rw [evaluateWith]
    exact binds_nested fun _ => binds_throw
  | function form name parameters head inner closed token =>
    rw [evaluateWith, definitions]
    exact binds_nested fun room =>
      (binds_bind name _).before fun _ => (binds_requireText room _ _).after fun _ => binds_pure
  | call callee arguments token =>
    rw [evaluateWith, definitions]
    refine binds_nested fun room => ?_
    -- the callee is looked up and not visited
    have supplied : Binds Evaluator.environment (definitionsOfAll arguments)
        (do apply body room callee (← evaluateAllWith body room arguments) token) :=
      (binds_evaluateAllWith called room arguments).before fun vs =>
        binds_apply called room callee vs token
    exact supplied.mono (List.sublist_append_right _ _)
  | binding target value token =>
    rw [evaluateWith, definitions]
    exact binds_nested fun room =>
      (binds_evaluateWith called room value).bind fun v => binds_define room target v token

/-- The expressions of a list bind what they define, one after the other. -/
theorem binds_evaluateAllWith
    (called : ∀ room e, Binds Evaluator.environment e.definitions (body room e)) (room : Room)
    (es : List Expr) :
    Binds Evaluator.environment (definitionsOfAll es) (evaluateAllWith body room es) := by
  cases es with
  | nil =>
    rw [evaluateAllWith]
    exact binds_pure
  | cons e es =>
    rw [evaluateAllWith, definitionsOfAll]
    exact (binds_evaluateWith called room e).bind fun v =>
      (binds_evaluateAllWith called room es).before fun vs => binds_pure

end

/-- An evaluation binds what its expression defines and nothing else. -/
theorem binds_evaluateWithin (depth : Nat) (room : Room) (e : Expr) :
    Binds Evaluator.environment e.definitions (evaluateWithin depth room e) := by
  induction depth generalizing room e with
  | zero => exact binds_throw
  | succ depth ih => exact binds_evaluateWith ih room e

/-- A statement that is evaluated binds what it defines. -/
theorem binds_evaluate (e : Expr) :
    Binds Evaluator.environment e.definitions (evaluate e) :=
  (binds_evaluateWithin maxLevels (.levels maxLevels) e).before fun _ =>
    (binds_requireText _ _ _).after fun _ =>
      (binds_requireText _ _ _).after fun _ => binds_pure

end Evaluation

/-! ## Checking -/

namespace Typing

theorem binds_attempt (x : Except Obstacle α) :
    Binds (id : Environment Classification → _) [] (attempt x) :=
  fun _ => ends_attempt (fun _ _ => .refl _ _) fun _ => Failure.leaves_of_extends (.refl _ _)

theorem binds_refuse {cause : TypeCause} {token : Option Token} :
    Binds id [] (refuse cause token : Check α) :=
  binds_throw

theorem binds_lookup (x : Expr) : Binds id [] (lookup x) :=
  fun _ => ends_lookup (fun _ _ => .refl _ _) fun _ => Failure.leaves_of_extends (.refl _ _)

theorem binds_bind (x : Expr) (c : Classification) : Binds id [x] (bind x c) :=
  fun _ => ends_bind (fun _ changed => Environment.extends_set changed) fun _ =>
    Failure.leaves_of_extends (.refl _ _)

/-- What is bound in a new scope is lost with it, if it is not left open. -/
theorem binds_inScope {room : Room} {xs : List Expr} {bindings : List (Expr × Classification)}
    {action : Check α} (h : Binds id xs action) : Binds id [] (inScope room bindings action) := by
  refine fun types => ends_inScope (fun env entered => ?_)
    (fun _ => Failure.leaves_of_extends (.refl _ _)) ?_
  · refine (h _).mono (fun c t extended => ?_) fun failure t left => ⟨left.leave entered, ?_⟩
    · have left : t.leave = types := extended.leave entered
      show types.Extends [] t.leave
      rw [left]
      exact .refl _ _
    · rintro rfl -
      exact left.open entered
  · exact ⟨_, .refl _ _, ⟨[[]], rfl⟩, fun other => absurd rfl other⟩

/-- To take the last of some classifications binds nothing. -/
theorem binds_lastOf (token : Option Token) (cs : List Classification) :
    Binds id [] (lastOf token cs) := by
  unfold lastOf
  split
  · exact binds_pure
  · exact binds_refuse

/-- To ask for an operand binds nothing. -/
theorem binds_requireOperand (operand : Expr) (c : Classification) (token : Option Token) :
    Binds id [] (requireOperand operand c token) := by
  unfold requireOperand
  split
  · exact binds_refuse
  · exact binds_pure

theorem binds_signed (node operand : Expr) (c : Classification) :
    Binds id [] (signed node operand c) := by
  cases c with
  | number | symbolic => exact binds_pure
  | _ => exact binds_refuse

/-- To ask for something that can be called binds nothing. -/
theorem binds_callable (given : Nat) (token : Option Token) (c : Classification) :
    Binds id [] (callable given token c) := by
  obtain ⟨f, bound, -, -, eq⟩ | ⟨f, bound, -, -, eq⟩ | eq := callable_cases given token c
  · exact eq ▸ binds_pure
  · exact eq ▸ binds_refuse
  · exact eq ▸ binds_refuse

variable {body : Room → Expr → Check Classification}

mutual

/-- The checker binds what the expression defines. Whatever is bound in a call goes to a scope of
its own. -/
theorem binds_classifyWith (called : ∀ room e, Binds id e.definitions (body room e)) (room : Room)
    (e : Expr) : Binds id e.definitions (classifyWith body room e) := by
  cases e with
  | number =>
    rw [classifyWith]
    exact binds_nested fun _ => binds_pure
  | var =>
    rw [classifyWith]
    exact binds_nested fun _ => (binds_lookup _).after fun _ => binds_pure
  | unary op operand token =>
    rw [classifyWith, definitions]
    exact binds_nested fun room =>
      (binds_classifyWith called room operand).before fun c => binds_signed _ operand c
  | binary op lhs rhs token =>
    rw [classifyWith, definitions]
    exact binds_nested fun room =>
      (binds_classifyWith called room lhs).bind fun c =>
        (binds_classifyWith called room rhs).before fun d =>
          (binds_requireOperand lhs c token).after fun _ =>
            (binds_requireOperand rhs d token).after fun _ => binds_pure
  | group items token =>
    rw [classifyWith, definitions]
    exact binds_nested fun room =>
      (binds_classifyAllWith called room items).before fun cs => binds_lastOf token cs
  | command name arguments token =>
    rw [classifyWith, definitions]
    exact binds_nested fun room =>
      (binds_classifyAllWith called room arguments).before fun cs => binds_lastOf token cs
  | block name arguments statements token =>
    rw [classifyWith, definitions]
    exact binds_nested fun room =>
      (binds_classifyAllWith called room statements).before fun cs => binds_lastOf token cs
  | prototype =>
    rw [classifyWith]
    exact binds_nested fun _ => binds_throw
  | function form name parameters head inner closed token =>
    rw [classifyWith, definitions]
    exact binds_nested fun _ => (binds_bind name _).before fun _ => binds_pure
  | call callee arguments token =>
    rw [classifyWith, definitions]
    refine binds_nested fun room => (binds_classifyWith called room callee).bind fun c =>
      (binds_callable _ token c).after fun (f, bound) =>
        (binds_classifyAllWith called room arguments).before fun cs => ?_
    -- a full call binds its parameters in a scope of its own; any other binds nothing
    dsimp only
    split
    · exact binds_inScope (called room f.body)
    · exact binds_pure
  | binding target value token =>
    rw [classifyWith, definitions]
    exact binds_nested fun room =>
      (binds_classifyWith called room value).bind fun c =>
        (binds_bind target c).before fun _ => binds_pure

/-- The checker binds what the expressions of a list define, one after the other. -/
theorem binds_classifyAllWith (called : ∀ room e, Binds id e.definitions (body room e))
    (room : Room) (es : List Expr) :
    Binds id (definitionsOfAll es) (classifyAllWith body room es) := by
  cases es with
  | nil =>
    rw [classifyAllWith]
    exact binds_pure
  | cons e es =>
    rw [classifyAllWith, definitionsOfAll]
    exact (binds_classifyWith called room e).bind fun c =>
      (binds_classifyAllWith called room es).before fun cs => binds_pure

end

/-- A classification binds what its expression defines and nothing else. -/
theorem binds_classifyWithin (depth : Nat) (room : Room) (e : Expr) :
    Binds id e.definitions (classifyWithin depth room e) := by
  induction depth generalizing room e with
  | zero => exact binds_throw
  | succ depth ih => exact binds_classifyWith ih room e

/-- A statement that is checked binds what it defines. -/
theorem binds_check (e : Expr) : Binds id e.definitions (check e) :=
  (binds_classifyWithin maxLevels (.levels maxLevels) e).before fun _ =>
    (binds_attempt _).after fun _ => binds_pure

end Typing

end TexAlgebra
