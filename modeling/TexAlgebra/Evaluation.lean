import TexAlgebra.Environment
import TexAlgebra.Expr.Printer
import TexAlgebra.Expr.Traversal
import TexAlgebra.Fault
/-!
# Evaluation

Evaluating an expression computes what can be computed and keeps everything else as it is: `(4 +
1)(x + 2)` evaluates to `5(x + 2)`. A bound variable evaluates to its value, and a full call to the
value of the body of its function, in a scope that binds the parameters to the arguments.

A call with fewer arguments than there are parameters is curried: the arguments are put into a copy
of the body, and what is left is a function of the remaining parameters under a fresh name. A
remaining parameter that occurs in one of the arguments is renamed, so that the argument keeps its
meaning.

The parts of an expression and the bodies of called functions are evaluated further down, and what
is bound or curried is written out from there, so an evaluation ends early where there is too little
room. What was bound until then stays bound, and scopes of calls may stay open.
-/

namespace TexAlgebra

/-- The state of an evaluation: what is bound, and how many fresh names were made. -/
structure Evaluator where
  environment : Environment Expr
  anonymous : Nat
  deriving Repr, Inhabited

namespace Evaluation

/-- A computation that binds names to values, makes fresh names, and may fail. -/
abbrev Eval := ExceptT Failure (StateM Evaluator)

/-- A computation that fails with a fault. -/
def refuse {α : Type} (cause : EvaluationCause) (token : Option Token) : Eval α :=
  throw (.fault ⟨.evaluation cause, token⟩)

/-- The result of a computation that may meet an obstacle. -/
def attempt {α : Type} : Except Obstacle α → Eval α
  | .ok a => return a
  | .error o => throw (.obstacle o)

/-- Requires that an expression can be written out in the room there is. -/
def requireText (room : Room) (style : Style) (e : Expr) : Eval Unit := do
  let _ ← attempt (e.texWithin room style)

/-- The value that `x` is bound to. -/
def lookup (x : Expr) : Eval (Option Expr) := do
  attempt ((← get).environment.lookup x)

/-- Changes the environment. -/
def update (f : Environment Expr → Except Obstacle (Environment Expr)) : Eval Unit := do
  let state ← get
  set { state with environment := ← attempt (f state.environment) }

/-- Binds `x` to a value. -/
def bind (x value : Expr) : Eval Unit := update (·.set x value)

/-- Carries out `action` in a new scope with some bindings, and closes the scope however it ends.
Closing it takes a level too: if there was no room for the action, there may be none for that
either, and then the scope stays open. The scope is always there to be closed, for no action closes
more scopes than it opens. -/
def inScope {α : Type} (room : Room) (bindings : List (Expr × Expr)) (action : Eval α) : Eval α :=
  ExceptT.mk do
    modify fun state => { state with environment := state.environment.push }
    let result ← ExceptT.run do
      update (·.setAll bindings)
      action
    modify fun state =>
      if ranOut result && !room.holds 1 then state
      else { state with environment := state.environment.leave }
    return result

/-! ## Operators -/

/-- The value of an operand with a sign. -/
def signed (op : Operator) (operand : Expr) (token : Option Token) : Eval Expr :=
  match operand with
  | .function _ _ _ _ _ _ _ => refuse .badOperator token
  | .number text t => do
    return .number (← attempt (Numeral.signed op text)) (token <|> t)
  | operand => return .unary op operand token

/-- The value of an operation. An equation is never decided, and an undefined operation is kept. -/
def operation (op : Operator) (lhs rhs : Expr) (token : Option Token) : Eval Expr := do
  if lhs.isFunction || rhs.isFunction then refuse .badOperator token
  else
    match op, lhs, rhs with
    | .equals, _, _ => return .binary op lhs rhs token
    | _, .number a t, .number b _ =>
      match ← attempt (Numeral.combined op a b) with
      | some text => return .number text (token <|> t)
      | none => return .binary op lhs rhs token
    | _, _, _ => return .binary op lhs rhs token

/-! ## Calls -/

/-- The fresh variable with number `n`. -/
def anonymousName (n : Nat) (token : Option Token) : Expr := .var ("anon" ++ n.repr) [] token

/-- A variable that was not used before. -/
def freshName (token : Option Token) : Eval Expr := do
  let state ← get
  set { state with anonymous := state.anonymous + 1 }
  return anonymousName state.anonymous token

/-- The remaining parameters of a curried function, each with its new name if it had to be renamed
because it occurs in one of the arguments. -/
def freshParameters (arguments : List Expr) : List Expr → Eval (List (Expr × Option Expr))
  | [] => return []
  | p :: ps => do
    let taken ← attempt (p.occursInAny arguments)
    let name ← if taken then some <$> freshName p.token else pure none
    let rest ← freshParameters arguments ps
    return (p, name) :: rest

/-- What is left of a function when its first parameters are supplied with arguments. -/
def curry (room : Room) (f : Function) (arguments : List Expr) (token : Option Token) :
    Eval Expr := do
  let name ← freshName token
  let closed := f.parameters.zip arguments
  let remaining ← freshParameters arguments (f.parameters.drop arguments.length)
  let renamed := remaining.filterMap fun (p, q) => q.map (p, ·)
  let closure : Function :=
    { form := .curried
      name := name
      parameters := remaining.map fun (p, q) => q.getD p
      head := token
      body := f.body.substitute (closed ++ renamed)
      closed := f.closed ++ closed
      token := token }
  requireText room .display f.prototype
  requireText room .oneLine closure.toExpr
  return closure.toExpr

/-- The value of a call with evaluated arguments, where `body` evaluates the bodies of functions. A
call of what is not a function is kept. -/
def apply (body : Room → Expr → Eval Expr) (room : Room) (callee : Expr) (arguments : List Expr)
    (token : Option Token) : Eval Expr := do
  match (← lookup callee).bind Expr.function? with
  | none => return .call callee arguments token
  | some f =>
    if f.arity < arguments.length then
      refuse (.tooManyArguments arguments.length f.arity) token
    else if arguments.length = f.arity then
      inScope room (f.parameters.zip arguments) (body room f.body)
    else curry room f arguments token

/-! ## Expressions -/

/-- Binds a value to a variable. A function takes the name of the variable. -/
def define (room : Room) (target value : Expr) (token : Option Token) : Eval Expr := do
  match value.function? with
  | some f => do
    let f := (f.renamed target).toExpr
    bind target f
    return f
  | none => do
    bind target value
    requireText room .display target
    requireText room .oneLine value
    return .binding target value token

mutual

/-- The value of an expression, where `body` evaluates the bodies of called functions. Its parts are
one level further down. -/
def evaluateWith (body : Room → Expr → Eval Expr) (room : Room) (e : Expr) : Eval Expr :=
  room.nested (throw (.obstacle .tooDeep)) fun room => do
    match e with
    | .number _ _ => return e
    | .var _ _ _ => return (← lookup e).getD e
    | .unary op operand t => do
      let operand ← evaluateWith body room operand
      signed op operand t
    | .binary op lhs rhs t => do
      let lhs ← evaluateWith body room lhs
      let rhs ← evaluateWith body room rhs
      operation op lhs rhs t
    | .group items t => return .group (← evaluateAllWith body room items) t
    | .command name arguments t => return .command name (← evaluateAllWith body room arguments) t
    | .block name arguments statements t =>
      return .block name arguments (← evaluateAllWith body room statements) t
    | .prototype _ _ t => refuse .unhandled t
    | .function _ name parameters head _ _ _ => do
      bind name e
      requireText room .display (.prototype name parameters head)
      return e
    | .call callee arguments t => do
      let arguments ← evaluateAllWith body room arguments
      apply body room callee arguments t
    | .binding target value t => do
      let value ← evaluateWith body room value
      define room target value t

/-- The values of several expressions, in order. -/
def evaluateAllWith (body : Room → Expr → Eval Expr) (room : Room) :
    List Expr → Eval (List Expr)
  | [] => return []
  | e :: es => do
    let v ← evaluateWith body room e
    let vs ← evaluateAllWith body room es
    return v :: vs

end

/-- The value of an expression with at most `depth` calls nested in one another. -/
def evaluateWithin : Nat → Room → Expr → Eval Expr
  | 0 => fun _ _ => throw (.obstacle .tooDeep)
  | depth + 1 => evaluateWith (evaluateWithin depth)

/-- The value of a statement. Both must be such that they can be written out. -/
def evaluateStatement (depth : Nat) (room : Room) (e : Expr) : Eval Expr := do
  let value ← evaluateWithin depth room e
  requireText room .oneLine e
  requireText room .oneLine value
  return value

/-- The value of a statement of a session. Calls that are nested in one another are on different
levels, so there are no more of them than levels. -/
def evaluate (e : Expr) : Eval Expr := evaluateStatement maxLevels (.levels maxLevels) e

end Evaluation

namespace Evaluator

/-- The evaluator that knows no names. -/
def initial : Evaluator := ⟨.empty, 0⟩

/-- Whether `x` is bound to a function. -/
def knowsFunction (s : Evaluator) (x : Expr) : Bool :=
  match s.environment.lookup x with
  | .ok (some value) => value.isFunction
  | _ => false

end Evaluator

end TexAlgebra
