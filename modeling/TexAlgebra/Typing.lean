import TexAlgebra.Environment
import TexAlgebra.Fault
/-!
# Checking of statements

Before a statement is evaluated it is classified, and refused if it cannot mean anything: if it
calls what is not a function, or a function with too many arguments, or applies an operator to a
function. The names that a statement binds are bound to their classifications, also for later
statements.

A call is classified by the body of its function, in a scope of its own; that scope is left unless
there was too little room. A call with too few arguments is a function of the remaining parameters,
which remembers the classifications of those that were supplied.
-/

namespace TexAlgebra

namespace Typing

/-- A computation that binds names to classifications and may fail. -/
abbrev Check := ExceptT Failure (StateM (Environment Classification))

/-- A computation that fails with a fault. -/
def refuse {α : Type} (cause : TypeCause) (token : Option Token) : Check α :=
  throw (.fault ⟨.typing cause, token⟩)

/-- The result of a computation that may meet an obstacle. -/
def attempt {α : Type} : Except Obstacle α → Check α
  | .ok a => return a
  | .error o => throw (.obstacle o)

/-- The classification that `x` is bound to. -/
def lookup (x : Expr) : Check (Option Classification) := do
  attempt ((← get).lookup x)

/-- Binds `x` to a classification. -/
def bind (x : Expr) (c : Classification) : Check Unit := do
  set (← attempt ((← get).set x c))

/-- Carries out `action` in a new scope with some bindings, and closes the scope however it ends.
Closing it takes a level too: if there was no room for the action, there may be none for that
either, and then the scope stays open. -/
def inScope {α : Type} (room : Room) (bindings : List (Expr × Classification))
    (action : Check α) : Check α :=
  ExceptT.mk do
    modify Environment.push
    let result ← ExceptT.run do
      set (← attempt ((← get).setAll bindings))
      action
    modify fun environment =>
      if ranOut result && !room.holds 1 then environment else environment.leave
    return result

/-- The classification of a list of parts, which is that of the last one. -/
def lastOf (token : Option Token) (parts : List Classification) : Check Classification :=
  match parts.getLast? with
  | some c => return c
  | none => refuse .emptyContainer token

/-- Refuses an operand that is a function. The operand's own token is blamed if it has one. -/
def requireOperand (operand : Expr) (c : Classification) (token : Option Token) : Check Unit :=
  if c.isFunction then refuse (.badOperand c) (operand.token <|> token) else return ()

/-- The classification of an operand with a sign. -/
def signed (node operand : Expr) : Classification → Check Classification
  | .number _ => return .number node
  | .symbolic _ => return .symbolic node
  | c => refuse (.badOperand c) (operand.token <|> node.token)

/-- What is left of a function when some parameters are supplied. -/
def remaining (f : Function) (given : Nat) (token : Option Token) : Function where
  form := .curried
  name := f.name
  parameters := f.parameters.drop given
  head := f.head
  body := f.body
  closed := []
  token := token

/-- The function that a call calls, if it can take the number of arguments. -/
def callable (given : Nat) (token : Option Token) :
    Classification → Check (Function × List (Expr × Classification))
  | .function f bound =>
    if f.arity < given then refuse (.tooManyArguments given f.arity) token
    else return (f, bound)
  | c => refuse (.notFunction c) token

mutual

/-- The classification of an expression, where `body` classifies the bodies of called functions. Its
parts are one level further down. -/
def classifyWith (body : Room → Expr → Check Classification) (room : Room) (e : Expr) :
    Check Classification :=
  room.nested (throw (.obstacle .tooDeep)) fun room => do
    match e with
    | .number _ _ => return .number e
    | .var _ _ _ => return (← lookup e).getD (.unknown e)
    | .unary _ operand _ => do
      let c ← classifyWith body room operand
      signed e operand c
    | .binary _ lhs rhs t => do
      let left ← classifyWith body room lhs
      let right ← classifyWith body room rhs
      requireOperand lhs left t
      requireOperand rhs right t
      return .number e
    | .group items t => do lastOf t (← classifyAllWith body room items)
    | .command _ arguments t => do lastOf t (← classifyAllWith body room arguments)
    | .block _ _ statements t => do lastOf t (← classifyAllWith body room statements)
    | .prototype _ _ t => refuse .uncheckable t
    | .function form name parameters head bodyOf closed t => do
      let c := .function ⟨form, name, parameters, head, bodyOf, closed, t⟩ []
      bind name c
      return c
    | .call callee arguments t => do
      let (f, bound) ← callable arguments.length t (← classifyWith body room callee)
      let supplied ← classifyAllWith body room arguments
      let bound := bound ++ f.parameters.zip supplied
      if arguments.length = f.arity then inScope room bound (body room f.body)
      else return .function (remaining f arguments.length t) bound
    | .binding target value _ => do
      let c ← classifyWith body room value
      bind target c
      return c

/-- The classifications of several expressions, in order. -/
def classifyAllWith (body : Room → Expr → Check Classification) (room : Room) :
    List Expr → Check (List Classification)
  | [] => return []
  | e :: es => do
    let c ← classifyWith body room e
    let cs ← classifyAllWith body room es
    return c :: cs

end

/-- The classification of an expression with at most `depth` calls nested in one another. -/
def classifyWithin : Nat → Room → Expr → Check Classification
  | 0 => fun _ _ => throw (.obstacle .tooDeep)
  | depth + 1 => classifyWith (classifyWithin depth)

/-- The classification of a statement, which must also be one that can be written out. -/
def checkStatement (depth : Nat) (room : Room) (e : Expr) : Check Classification := do
  let c ← classifyWithin depth room e
  let _ ← attempt (e.texWithin room .oneLine)
  return c

/-- The classification of a statement of a session. -/
def check (e : Expr) : Check Classification := checkStatement maxLevels (.levels maxLevels) e

end Typing

end TexAlgebra
