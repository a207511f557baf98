import TexAlgebra.Proofs.Typing.Results
import TexAlgebra.Proofs.Unplaced.Evaluation
/-!
# Checking without places

Checking an expression without places, where no variable and no classification that is bound has
one, does what checking the expression does, without the places (`Typing.unplaces_check`).
-/

namespace TexAlgebra

open TexAlgebra.Expr

namespace Classification

/-- A function loses its places part by part, with what its parameters are bound to. -/
@[simp] theorem unplaced_function (f : Function) (bound : Scope Classification) :
    (function f bound).unplaced = function f.unplaced (bound.stripped unplaced) := by
  rw [unplaced, unplacedBound_eq]

/-- A function is one without places. -/
@[simp] theorem isFunction_unplaced (c : Classification) :
    c.unplaced.isFunction = c.isFunction := by
  cases c <;> rfl

end Classification

namespace Typing

variable {α β γ δ : Type} {f : α → β} {g : γ → δ} {x : Check α} {y : Check β} {room : Room}

/-- Whether `y` does on environments without places what `x` does, where `f` takes the places out of
its results. -/
abbrev Unplaces (f : α → β) (x : Check α) (y : Check β) : Prop :=
  Parallel (fun s t : Environment Classification => t = s.stripped Classification.unplaced)
    (fun a b => b = f a) (fun e e' : Failure => e' = e.unplaced) x y

theorem unplaces_pure (f : α → β) (a : α) : Unplaces f (pure a) (pure (f a)) := parallel_pure rfl

/-- A sequence does without places what its steps do. -/
theorem Unplaces.bind {h : α → Check γ} {k : β → Check δ} (first : Unplaces f x y)
    (next : ∀ a, Unplaces g (h a) (k (f a))) : Unplaces g (x >>= h) (y >>= k) := by
  refine Parallel.bind first ?_
  rintro a _ rfl
  exact next a

/-- A refusal drops the place of its token, and those of what it cites. -/
theorem unplaces_refuse (f : α → β) (cause : TypeCause) (token : Option Token) :
    Unplaces f (refuse cause token) (refuse cause.unplaced (token.map Token.unplaced)) :=
  parallel_throw rfl

/-- The room does not depend on places. -/
theorem unplaces_nested {step : Room → Check α} {step' : Room → Check β}
    (h : ∀ room, Unplaces f (step room) (step' room)) :
    Unplaces f (room.nested (throw (.obstacle .tooDeep)) step)
      (room.nested (throw (.obstacle .tooDeep)) step') :=
  room.nested_rel (R := Unplaces f) (parallel_throw rfl) h

/-- What does not look at the environment does without places what it does. -/
theorem unplaces_attempt (f : α → β) (r : Except Obstacle α) :
    Unplaces f (attempt r) (attempt (r.map f)) := by
  cases r with
  | error o => exact parallel_throw rfl
  | ok a => exact parallel_pure rfl

/-- A lookup finds without places what it finds, without its places. -/
theorem unplaces_lookup (x : Expr) :
    Unplaces (Option.map Classification.unplaced) (lookup x) (lookup x.unplaced) := by
  rintro s _ rfl
  have found := unplaces_attempt (Option.map Classification.unplaced) (s.lookup x) s _ rfl
  rw [← Environment.lookup_stripped] at found
  exact found

/-- A binding is made without places. -/
theorem unplaces_bind (x : Expr) (c : Classification) :
    Unplaces id (bind x c) (bind x.unplaced c.unplaced) := by
  rintro s _ rfl
  have changed := unplaces_attempt (Environment.stripped Classification.unplaced) (s.set x c)
  rw [← Environment.set_stripped] at changed
  have update : Unplaces id (do set (← attempt (s.set x c)) : Check Unit)
      (do set (← attempt ((s.stripped Classification.unplaced).set x.unplaced c.unplaced))) := by
    refine Unplaces.bind changed fun env => ?_
    rintro t _ rfl
    exact ⟨rfl, rfl⟩
  exact update s _ rfl

/-- A scope does without places what its action does. -/
theorem unplaces_inScope {action : Check α} {action' : Check β} (bindings : Scope Classification)
    (h : Unplaces f action action') :
    Unplaces f (inScope room bindings action)
      (inScope room (bindings.stripped Classification.unplaced) action') := by
  refine Parallel.between fun s t related =>
    ⟨fun s t => t = s.stripped Classification.unplaced, ?_, ?_, ?_⟩
  · subst related
    exact Environment.stripped_push _ s
  · rintro s _ rfl
    have changed := unplaces_attempt (Environment.stripped Classification.unplaced)
      (s.setAll bindings)
    rw [← Environment.setAll_stripped] at changed
    -- between opening and closing the scope, the bindings are made without places too
    have inner : Unplaces f (do set (← attempt (s.setAll bindings)); action : Check α)
        (do set (← attempt ((s.stripped Classification.unplaced).setAll
          (bindings.stripped Classification.unplaced))); action') := by
      refine Unplaces.bind changed fun env => Unplaces.bind (f := id) ?_ fun _ => h
      rintro t _ rfl
      exact ⟨rfl, rfl⟩
    exact inner s _ rfl
  · rintro s _ rfl
    have left := s.stripped_leave Classification.unplaced
    refine ⟨fun _ _ _ => left, ?_⟩
    rintro e _ rfl
    rw [@ranOut_unplaced α β e]
    by_cases out : (ranOut (.error e : Except Failure α) && !room.holds 1) = true
    · rw [if_pos out, if_pos out]
    · rw [if_neg out, if_neg out]
      exact left

theorem unplaces_lastOf (token : Option Token) (cs : List Classification) :
    Unplaces Classification.unplaced (lastOf token cs)
      (lastOf (token.map Token.unplaced) (cs.map Classification.unplaced)) := by
  unfold lastOf
  rw [List.getLast?_map]
  cases cs.getLast? with
  | none => exact unplaces_refuse _ _ _
  | some c => exact unplaces_pure _ c

theorem unplaces_requireOperand (operand : Expr) (c : Classification) (token : Option Token) :
    Unplaces id (requireOperand operand c token)
      (requireOperand operand.unplaced c.unplaced (token.map Token.unplaced)) := by
  unfold requireOperand
  rw [Classification.isFunction_unplaced, token_unplaced, ← map_orElse]
  split
  · exact unplaces_refuse _ _ _
  · exact unplaces_pure _ ()

theorem unplaces_signed (node operand : Expr) (c : Classification) :
    Unplaces Classification.unplaced (signed node operand c)
      (signed node.unplaced operand.unplaced c.unplaced) := by
  have refused (c : Classification) : Unplaces Classification.unplaced
      (refuse (.badOperand c) (operand.token <|> node.token))
      (refuse (.badOperand c.unplaced) (operand.unplaced.token <|> node.unplaced.token)) := by
    rw [token_unplaced, token_unplaced, ← map_orElse]
    exact unplaces_refuse _ _ _
  cases c with
  | number => exact unplaces_pure Classification.unplaced (.number node)
  | symbolic => exact unplaces_pure Classification.unplaced (.symbolic node)
  | unknown e => exact refused (.unknown e)
  | function f bound => exact refused (.function f bound)

/-- A function with bound parameters, with all tokens at the start of a text. -/
def unplacedCallable (r : Function × Scope Classification) : Function × Scope Classification :=
  (r.1.unplaced, r.2.stripped Classification.unplaced)

theorem unplaces_callable (given : Nat) (token : Option Token) (c : Classification) :
    Unplaces unplacedCallable (callable given token c)
      (callable given (token.map Token.unplaced) c.unplaced) := by
  cases c with
  | function f bound =>
    have refused := unplaces_refuse unplacedCallable (.tooManyArguments given f.arity) token
    rw [Classification.unplaced_function]
    unfold callable
    dsimp only
    rw [Function.arity_unplaced]
    split
    · exact refused
    · exact unplaces_pure unplacedCallable (f, bound)
  | _ => exact unplaces_refuse unplacedCallable (.notFunction _) token

theorem unplaced_remaining (f : Function) (given : Nat) (token : Option Token) :
    (remaining f given token).unplaced =
      remaining f.unplaced given (token.map Token.unplaced) := by
  rw [remaining, remaining, Function.unplaced]
  simp only [Function.unplaced, List.map_drop, List.map_nil]

variable {body body' : Room → Expr → Check Classification}

/-- The expressions of a list are classified without places as they are. -/
theorem unplaces_classifyAllWith {es : List Expr}
    (all : ∀ e ∈ es, Unplaces Classification.unplaced (classifyWith body room e)
      (classifyWith body' room e.unplaced)) :
    Unplaces (List.map Classification.unplaced) (classifyAllWith body room es)
      (classifyAllWith body' room (es.map Expr.unplaced)) := by
  induction es with
  | nil =>
    rw [List.map_nil, classifyAllWith, classifyAllWith]
    exact unplaces_pure _ []
  | cons e es ih =>
    rw [List.map_cons, classifyAllWith, classifyAllWith]
    refine Unplaces.bind (all e List.mem_cons_self) fun c => ?_
    exact Unplaces.bind (ih fun e he => all e (List.mem_cons_of_mem _ he)) fun cs =>
      unplaces_pure (List.map Classification.unplaced) (c :: cs)

theorem append_zip_unplaced (f : Function) (bound : Scope Classification)
    (supplied : List Classification) :
    bound.stripped Classification.unplaced ++
        f.unplaced.parameters.zip (supplied.map Classification.unplaced) =
      Scope.stripped Classification.unplaced (bound ++ f.parameters.zip supplied) := by
  rw [Function.unplaced, List.zip_map]
  simp only [Scope.stripped, Scope.mapped, Scope.unplaced, List.map_append, List.map_map]
  rfl

/-- A call gives without places what it gives, whether it is complete or not. -/
theorem unplaces_called
    (bodies : ∀ (room : Room) (e : Expr),
      Unplaces Classification.unplaced (body room e) (body' room e.unplaced))
    (f : Function) (bound : Scope Classification) (given : Nat) (supplied : List Classification)
    (token : Option Token) :
    Unplaces Classification.unplaced
      (if given = f.arity then inScope room (bound ++ f.parameters.zip supplied) (body room f.body)
      else pure (.function (remaining f given token) (bound ++ f.parameters.zip supplied)))
      (if given = f.unplaced.arity then
        inScope room (bound.stripped Classification.unplaced ++
          f.unplaced.parameters.zip (supplied.map Classification.unplaced))
          (body' room f.unplaced.body)
      else pure (.function (remaining f.unplaced given (token.map Token.unplaced))
        (bound.stripped Classification.unplaced ++
          f.unplaced.parameters.zip (supplied.map Classification.unplaced)))) := by
  rw [Function.arity_unplaced, append_zip_unplaced]
  split
  · exact unplaces_inScope _ (bodies room f.body)
  · refine parallel_pure ?_
    rw [Classification.unplaced_function, unplaced_remaining]

/-- An expression is classified without places as it is, with the bodies of functions given. -/
theorem unplaces_classifyWith
    (bodies : ∀ (room : Room) (e : Expr),
      Unplaces Classification.unplaced (body room e) (body' room e.unplaced))
    (e : Expr) :
    Unplaces Classification.unplaced (classifyWith body room e)
      (classifyWith body' room e.unplaced) := by
  induction e using parts_induction generalizing room with
  | number text t =>
    rw [unplaced_number, classifyWith, classifyWith]
    exact unplaces_nested fun room =>
      unplaces_pure Classification.unplaced (.number (.number text t))
  | var name subscripts t _ =>
    have found := unplaces_lookup (.var name subscripts t)
    rw [unplaced_var] at found
    rw [unplaced_var, classifyWith, classifyWith]
    refine unplaces_nested fun room => Unplaces.bind found fun value => parallel_pure ?_
    cases value with
    | none => exact congrArg Classification.unknown (unplaced_var name subscripts t).symm
    | some c => rfl
  | unary op operand t inner =>
    rw [unplaced_unary, classifyWith, classifyWith]
    exact unplaces_nested fun room =>
      Unplaces.bind inner fun c => unplaces_signed (.unary op operand t) operand c
  | binary op lhs rhs t left right =>
    rw [unplaced_binary, classifyWith, classifyWith]
    refine unplaces_nested fun room => Unplaces.bind left fun c => Unplaces.bind right fun d => ?_
    refine Unplaces.bind (unplaces_requireOperand lhs c t) fun _ => ?_
    refine Unplaces.bind (unplaces_requireOperand rhs d t) fun _ => ?_
    exact unplaces_pure Classification.unplaced (.number (.binary op lhs rhs t))
  | group items t all =>
    rw [unplaced_group, classifyWith, classifyWith]
    exact unplaces_nested fun room =>
      Unplaces.bind (unplaces_classifyAllWith fun e he => all e he) fun cs => unplaces_lastOf t cs
  | command name arguments t all =>
    rw [unplaced_command, classifyWith, classifyWith]
    exact unplaces_nested fun room =>
      Unplaces.bind (unplaces_classifyAllWith fun e he => all e he) fun cs => unplaces_lastOf t cs
  | block name arguments statements t all =>
    rw [unplaced_block, classifyWith, classifyWith]
    exact unplaces_nested fun room =>
      Unplaces.bind (unplaces_classifyAllWith fun e he => all e he) fun cs => unplaces_lastOf t cs
  | prototype name parameters t _ _ =>
    rw [unplaced_prototype, classifyWith, classifyWith]
    exact unplaces_nested fun room => unplaces_refuse _ .uncheckable t
  | function form name parameters head inner closed t _ _ _ _ =>
    have self : (Classification.function ⟨form, name, parameters, head, inner, closed, t⟩
        []).unplaced = .function (Function.unplaced
          ⟨form, name, parameters, head, inner, closed, t⟩) [] := by
      rw [Classification.unplaced_function]
      rfl
    have bound := unplaces_bind name
      (.function ⟨form, name, parameters, head, inner, closed, t⟩ [])
    rw [self] at bound
    rw [Expr.unplaced_function, classifyWith, classifyWith]
    refine unplaces_nested fun room => Unplaces.bind bound fun _ => parallel_pure ?_
    rw [self]
    rfl
  | call callee arguments t called all =>
    rw [unplaced_call, classifyWith, classifyWith]
    refine unplaces_nested fun room => Unplaces.bind called fun c => ?_
    rw [List.length_map]
    refine Unplaces.bind (unplaces_callable arguments.length t c) fun r => ?_
    refine Unplaces.bind (unplaces_classifyAllWith fun e he => all e he) fun supplied => ?_
    exact unplaces_called bodies r.1 r.2 arguments.length supplied t
  | binding target value t _ inner =>
    rw [unplaced_binding, classifyWith, classifyWith]
    refine unplaces_nested fun room => Unplaces.bind inner fun c => ?_
    exact Unplaces.bind (unplaces_bind target c) fun _ => unplaces_pure Classification.unplaced c

/-- An expression is classified without places as it is, however deep it goes. -/
theorem unplaces_classifyWithin (depth : Nat) (room : Room) (e : Expr) :
    Unplaces Classification.unplaced (classifyWithin depth room e)
      (classifyWithin depth room e.unplaced) := by
  induction depth generalizing room e with
  | zero => exact parallel_throw rfl
  | succ depth ih => exact unplaces_classifyWith ih e

/-- Checking without places is checking, without the places. -/
theorem unplaces_check (e : Expr) :
    Unplaces Classification.unplaced (check e) (check e.unplaced) := by
  refine Unplaces.bind (unplaces_classifyWithin maxLevels (.levels maxLevels) e) fun c => ?_
  have written := unplaces_attempt id (e.texWithin (.levels maxLevels) .oneLine)
  rw [Except.map_id, id_eq] at written
  rw [texWithin_unplaced]
  exact Unplaces.bind written fun _ => unplaces_pure Classification.unplaced c

end Typing

end TexAlgebra
