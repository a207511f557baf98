import TexAlgebra.Expr.Printer
/-!
# Classifications

What an expression is known to be before it is evaluated: a number, something symbolic, a function,
or a name that nothing is known about. This is enough to refuse the statements that cannot mean
anything.
-/

namespace TexAlgebra

/-- What the checker knows of an expression. -/
inductive Classification where
  | number (node : Expr)
  | symbolic (node : Expr)
  | unknown (node : Expr)
  /-- A function, with the classifications of the parameters that were supplied before. -/
  | function (f : Function) (bound : List (Expr × Classification))
  deriving Repr, Inhabited

namespace Classification

/-- The expression that is classified. -/
def node : Classification → Expr
  | number e => e
  | symbolic e => e
  | unknown e => e
  | function f _ => f.toExpr

/-- The kind of a classification as a word. -/
def kind : Classification → String
  | number _ => "number"
  | symbolic _ => "variable"
  | unknown _ => "unknown"
  | function _ _ => "function"

/-- The number of arguments that are still expected. -/
def arity : Classification → Nat
  | function f _ => f.arity
  | _ => 0

/-- The classifications of the parameters that were supplied before. -/
def bound : Classification → List (Expr × Classification)
  | function _ bound => bound
  | _ => []

/-- Whether the expression is a function. -/
def isFunction : Classification → Bool
  | function _ _ => true
  | _ => false

/-- The classification as text. -/
def describe (c : Classification) : Except Obstacle String := do
  let text ← c.node.tex .oneLine
  match c with
  | function f _ => return c.kind ++ "(" ++ text ++ ", " ++ f.arity.repr ++ ")"
  | c => return c.kind ++ "(" ++ text ++ ")"

end Classification

end TexAlgebra
