import TexAlgebra.Expr.Expansion
/-!
# Steppers

A stepper makes single steps of expansion, and one stepper can be used for any number of expressions
after one another. It notes whether its step is made, and how many nodes it is inside of. A visit
that starts outside of all nodes is a new traversal and gets a new step. Once the step is made, the
nodes that are still to come are left as they are.

A node is left in any case, so a stepper can be used again after a traversal that failed.
-/

namespace TexAlgebra.Expr

/-- What a stepper keeps in mind. -/
structure Stepper where
  /-- Whether a rule was applied in the traversal that is under way, or else in the last one. -/
  stepped : Bool
  /-- The number of nodes that were entered and not left yet. -/
  depth : Nat
  deriving DecidableEq, Repr, Inhabited

namespace Stepper

/-- A stepper that was never used. -/
def unused : Stepper := ⟨false, 0⟩

/-- A computation by means of a stepper. What the stepper keeps in mind outlasts a failure. -/
abbrev Stepping := ExceptT Obstacle (StateM Stepper)

/-- Whether the node that is reached now is to be left as it is. A new traversal gets a new step. -/
def skips : Stepping Bool := do
  let s ← get
  if s.depth = 0 then
    set { s with stepped := false }
    return false
  else return s.stepped

/-- Carries out `action` inside of a node, and leaves the node in any case. -/
def within {α : Type} (action : Stepping α) : Stepping α :=
  ExceptT.mk do
    modify fun s => { s with depth := s.depth + 1 }
    let result ← action.run
    modify fun s => { s with depth := s.depth - 1 }
    return result

/-- What the rules make of a node, if one applies to it. That is the step. -/
def contracted? (e : Expr) : Stepping (Option Expr) :=
  match contract? e with
  | .error o => throw o
  | .ok none => return none
  | .ok (some r) => do
    modify fun s => { s with stepped := true }
    return some r

mutual

/-- The expression after a visit of a stepper. -/
def visit (e : Expr) : Stepping Expr := do
  if ← skips then return e
  within do
    match ← contracted? e with
    | some r => return r
    | none =>
      match e with
      | number text t => return number text t
      | var name subscripts t => return var name (← visitAll subscripts) t
      | unary op operand t => return unary op (← visit operand) t
      | binary op lhs rhs t => return binary op (← visit lhs) (← visit rhs) t
      | group items t => return group (← visitAll items) t
      | command name arguments t => return command name (← visitAll arguments) t
      | block name arguments statements t =>
        return block name arguments (← visitAll statements) t
      | prototype name parameters t =>
        return prototype (← visit name) (← visitAll parameters) t
      | function form name parameters head body closed t =>
        return function form (← visit name) (← visitAll parameters) head (← visit body) closed t
      | call callee arguments t => return call (← visit callee) (← visitAll arguments) t
      | binding target value t => return binding (← visit target) (← visit value) t

/-- Several expressions after a visit of each, in order. -/
def visitAll : List Expr → Stepping (List Expr)
  | [] => return []
  | e :: es => return (← visit e) :: (← visitAll es)

end

/-- A stepper after its use for several expressions. -/
def after (s : Stepper) (es : List Expr) : Stepper :=
  es.foldl (fun s e => ((visit e).run s).2) s

end Stepper

end TexAlgebra.Expr
