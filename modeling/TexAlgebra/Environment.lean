import TexAlgebra.Expr.Matching
/-!
# Environments

An environment binds variables to values of some type. It has a global scope and, above it, one
scope for each call that is under way. A variable is found in the innermost scope that binds it, and
a binding goes to the innermost scope. Variables are the same if they match, so `x_{1}` and
`x_{1.0}` share their binding.

Within a scope bindings are kept in the order in which they were made.
-/

namespace TexAlgebra

/-- The bindings of one scope, the oldest first. -/
abbrev Scope (α : Type) := List (Expr × α)

namespace Scope

variable {α : Type}

/-- The value of the first binding whose variable matches `x`. -/
def firstMatch? (x : Expr) : Scope α → Except Obstacle (Option α)
  | [] => return none
  | (y, a) :: rest => do
    if ← y.matchesWith x then return some a else firstMatch? x rest

/-- The value that a scope binds to `x`; a binding of the very same variable comes first. -/
def lookup (x : Expr) (s : Scope α) : Except Obstacle (Option α) :=
  match s.find? (·.1 == x) with
  | some (_, a) => return some a
  | none => firstMatch? x s

/-- The scope without the bindings of variables that match `x`. -/
def erase (x : Expr) : Scope α → Except Obstacle (Scope α)
  | [] => return []
  | (y, a) :: rest => do
    let found ← y.matchesWith x
    let rest ← erase x rest
    return if found then rest else (y, a) :: rest

/-- The scope with `x` bound to `a`, as its latest binding. -/
def set (x : Expr) (a : α) (s : Scope α) : Except Obstacle (Scope α) := do
  return (← s.erase x) ++ [(x, a)]

/-- The scope with the value of `x` replaced by `a` in its place, or appended if `x` is not bound.
-/
def put (s : Scope α) (x : Expr) (a : α) : Scope α :=
  match s with
  | [] => [(x, a)]
  | (y, b) :: rest => if y == x then (y, a) :: rest else (y, b) :: put rest x a

/-- The scope with every binding of an inner scope put into it. -/
def overlaid (s inner : Scope α) : Scope α := inner.foldl (fun s b => s.put b.1 b.2) s

end Scope

/-- A global scope and the scopes of the calls that are under way, the innermost first. -/
structure Environment (α : Type) where
  globals : Scope α
  scopes : List (Scope α)
  deriving Repr, Inhabited

namespace Environment

variable {α : Type}

/-- The environment without any binding. -/
def empty : Environment α := ⟨[], []⟩

/-- The number of scopes above the global one. -/
def depth (env : Environment α) : Nat := env.scopes.length

/-- The environment with a new innermost scope. -/
def push (env : Environment α) : Environment α := { env with scopes := [] :: env.scopes }

/-- The environment without its innermost scope, which must not be the global one. -/
def pop (env : Environment α) : Except Obstacle (Environment α) :=
  match env.scopes with
  | [] => .error .noScope
  | _ :: outer => .ok { env with scopes := outer }

/-- The environment without its innermost scope, unless that is the global one. Where a scope is
open, this is what `pop` gives. -/
def leave (env : Environment α) : Environment α := { env with scopes := env.scopes.drop 1 }

/-- The environment with its global scope alone. -/
def unwind (env : Environment α) : Environment α := { env with scopes := [] }

/-- The value of the first scope that binds `x`. -/
def lookupIn (x : Expr) : List (Scope α) → Except Obstacle (Option α)
  | [] => return none
  | s :: outer => do
    match ← s.lookup x with
    | some a => return some a
    | none => lookupIn x outer

/-- The value that the innermost scope which binds `x` gives to it. -/
def lookup (env : Environment α) (x : Expr) : Except Obstacle (Option α) :=
  lookupIn x (env.scopes ++ [env.globals])

/-- The environment with `x` bound to `a` in its innermost scope. -/
def set (env : Environment α) (x : Expr) (a : α) : Except Obstacle (Environment α) := do
  match env.scopes with
  | [] => return { env with globals := ← env.globals.set x a }
  | s :: outer => return { env with scopes := (← s.set x a) :: outer }

/-- The environment with several bindings made one after the other. -/
def setAll (env : Environment α) : List (Expr × α) → Except Obstacle (Environment α)
  | [] => return env
  | (x, a) :: rest => do (← env.set x a).setAll rest

/-- Every visible binding, those of the global scope first. An inner scope overrides an outer one.
-/
def bindings (env : Environment α) : Scope α :=
  env.scopes.reverse.foldl Scope.overlaid env.globals

/-- The lines of a listing of bindings. -/
def lines (variableText : Expr → Except Obstacle String) (valueText : α → Except Obstacle String) :
    Scope α → Except Obstacle (List String)
  | [] => return []
  | (x, a) :: rest => do
    let line := (← variableText x) ++ " => " ++ (← valueText a)
    return line :: (← lines variableText valueText rest)

/-- The visible bindings, one on a line. -/
def listing (variableText : Expr → Except Obstacle String)
    (valueText : α → Except Obstacle String) (env : Environment α) : Except Obstacle String := do
  return String.intercalate "\n" (← lines variableText valueText env.bindings)

end Environment

end TexAlgebra
