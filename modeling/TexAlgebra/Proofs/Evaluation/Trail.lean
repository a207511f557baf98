import TexAlgebra.Proofs.Evaluation.Currying
/-!
# Partial applications on the way

An evaluation may supply functions with too few arguments many times before it ends, in the bodies
of called functions as well. `Evaluation.applications` lists these partial applications in order,
each with the state in which it is carried out, whether or not the evaluation succeeds in the end.
Every application makes fresh names (`Application.freshNames`) and builds a closure from them
(`Evaluation.build`), which is then written out.
-/

namespace TexAlgebra

/-- A partial application: a function with evaluated arguments, too few of them, the token of the
call, and the state in which they are supplied. -/
structure Application where
  function : Function
  arguments : List Expr
  token : Option Token
  state : Evaluator

namespace Evaluation

variable {α β γ : Type}

/-! ## Trails -/

/-- What is met on the way of an evaluation, from each state. -/
abbrev Trail (α : Type) := Evaluator → List α

namespace Trail

/-- The trail on which nothing is met. -/
def none : Trail α := fun _ => []

/-- The trail of a computation that goes on with its result. If it fails, nothing more is met. -/
def bind (x : Eval β) (own : Trail α) (next : β → Trail α) : Trail α := fun s =>
  match x s with
  | (.ok b, t) => own s ++ next b t
  | (.error _, _) => own s

/-- The trail of a computation in a new scope with some bindings. -/
def inScope (bindings : List (Expr × Expr)) (inner : Trail α) : Trail α := fun s =>
  bind (update (·.setAll bindings)) none (fun _ => inner)
    { s with environment := s.environment.push }

variable {x : Eval β} {own : Trail α} {next : β → Trail α} {s t : Evaluator}

/-- A sequence leaves the trail of both steps if the first one ends with a result. -/
theorem bind_of_ok {b : β} (h : x s = (.ok b, t)) : bind x own next s = own s ++ next b t := by
  rw [bind, h]

/-- A sequence leaves the trail of the first step alone if that fails. -/
theorem bind_of_error {e : Failure} (h : x s = (.error e, t)) : bind x own next s = own s := by
  rw [bind, h]

/-- A step that applies nothing adds nothing to a trail. -/
theorem bind_none (x : Eval β) (own : Trail α) : bind x own (fun _ => none) = own := by
  funext s
  rcases h : x s with ⟨e | b, t⟩
  · exact bind_of_error h
  · rw [bind_of_ok h, none, List.append_nil]

end Trail

/-! ## Partial applications -/

/-- The fresh names for those of the parameters that occur in the arguments. -/
def namesFor (arguments : List Expr) : List Expr → Trail Expr
  | [] => .none
  | p :: ps => .bind (attempt (p.occursInAny arguments)) .none fun taken =>
    if taken then .bind (freshName p.token) .none fun name s => name :: namesFor arguments ps s
    else namesFor arguments ps

/-- Builds what is left of a function when its first parameters are supplied with arguments. -/
def build (f : Function) (arguments : List Expr) (token : Option Token) : Eval Function := do
  let name ← freshName token
  let remaining ← freshParameters arguments (f.parameters.drop arguments.length)
  return closure f arguments remaining name token

/-- A partial application builds a closure and then requires that it can be written out. -/
theorem curry_eq_build (room : Room) (f : Function) (arguments : List Expr) (token : Option Token) :
    curry room f arguments token = (do
      let g ← build f arguments token
      requireText room .display f.prototype
      requireText room .oneLine g.toExpr
      return g.toExpr) := by
  simp only [build, bind_assoc, pure_bind]
  rfl

end Evaluation

namespace Application

open Evaluation

/-- The number of the next fresh name after the application. -/
def counter (a : Application) : Nat := (build a.function a.arguments a.token a.state).2.anonymous

/-- Writing out what an application has built makes no fresh name. -/
theorem counter_eq (a : Application) (room : Room) :
    (curry room a.function a.arguments a.token a.state).2.anonymous = a.counter := by
  let P (t : Evaluator) : Prop := t.anonymous = a.counter
  rw [curry_eq_build]
  refine Ends.state (P := P) ((Ends.of_state (P := P) rfl).bind fun g t same => ?_)
  exact ends_requireText_bind (ends_requireText_bind (ends_pure same) fun _ => same) fun _ => same

/-- The fresh names that the application makes: that of the closure, and those of parameters. -/
def freshNames (a : Application) : List Expr :=
  Trail.bind (freshName a.token) .none
    (fun name s =>
      name :: namesFor a.arguments (a.function.parameters.drop a.arguments.length) s) a.state

/-- The closure that the application builds, also if it cannot be written out then. -/
def closure? (a : Application) : Option Function :=
  match (build a.function a.arguments a.token a.state).1 with
  | .ok g => some g
  | .error _ => none

end Application

namespace Evaluation

/-! ## Evaluations -/

section

variable (body : Room → Expr → Eval Expr) (inner : Room → Expr → Trail Application) (room : Room)

/-- The partial applications of a call with evaluated arguments. -/
def applicationsOfCall (callee : Expr) (values : List Expr) (token : Option Token) :
    Trail Application :=
  .bind (lookup callee) .none fun value =>
    match value.bind Expr.function? with
    | none => .none
    | some f =>
      if f.arity < values.length then .none
      else if values.length = f.arity then .inScope (f.parameters.zip values) (inner room f.body)
      else fun s => [⟨f, values, token, s⟩]

mutual

/-- The partial applications on the way of evaluating an expression, where `body` evaluates the
bodies of called functions and meets those of `inner`. -/
def applicationsWith (room : Room) (e : Expr) : Trail Application :=
  room.nested .none fun room =>
    match e with
    | .number _ _ => .none
    | .var _ _ _ => .none
    | .unary _ operand _ => applicationsWith room operand
    | .binary _ lhs rhs _ =>
      .bind (evaluateWith body room lhs) (applicationsWith room lhs) fun _ =>
        applicationsWith room rhs
    | .group items _ => applicationsAllWith room items
    | .command _ arguments _ => applicationsAllWith room arguments
    | .block _ _ statements _ => applicationsAllWith room statements
    | .prototype _ _ _ => .none
    | .function _ _ _ _ _ _ _ => .none
    | .call callee arguments token =>
      .bind (evaluateAllWith body room arguments) (applicationsAllWith room arguments) fun values =>
        applicationsOfCall inner room callee values token
    | .binding _ value _ => applicationsWith room value

/-- The partial applications on the way of evaluating several expressions, in order. -/
def applicationsAllWith (room : Room) : List Expr → Trail Application
  | [] => .none
  | e :: es =>
    .bind (evaluateWith body room e) (applicationsWith room e) fun _ => applicationsAllWith room es

end

end

/-- The partial applications on the way of evaluating an expression with at most `depth` calls
nested in one another. -/
def applicationsWithin : Nat → Room → Expr → Trail Application
  | 0 => fun _ _ => .none
  | depth + 1 => applicationsWith (evaluateWithin depth) (applicationsWithin depth)

/-- The partial applications on the way of evaluating a statement. -/
def applications (e : Expr) : Trail Application :=
  applicationsWithin maxLevels (.levels maxLevels) e

end Evaluation

end TexAlgebra
