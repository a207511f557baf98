import TexAlgebra.Expr
/-!
# Passes over expressions

A pass visits an expression from the root to the leaves. Where it has a replacement for a node, the
replacement stands as it is; any other node is rebuilt from its visited parts and then finished.
Every rebuilt node keeps its token.

* `copy` rebuilds everything;
* `substitute` replaces variables by expressions;
* `exchangeOperands` turns every operation around.

Expansion is a pass as well, in a monad that can fail.
-/

namespace TexAlgebra

/-- How a pass treats a node. -/
structure Pass (m : Type → Type) where
  /-- What stands in place of a node, whose parts are then not visited. -/
  replacement? : Expr → m (Option Expr)
  /-- What becomes of a node that was rebuilt from its parts. -/
  finish : Expr → m Expr

/-- The function with the name and the parameters of a prototype. -/
def Function.withPrototype (f : Function) : Expr → Function
  | .prototype name parameters head =>
    { f with name := name, parameters := parameters, head := head }
  | _ => f

namespace Expr

variable {m : Type → Type} [Monad m]

mutual

/-- The expression after a pass. -/
def visit (pass : Pass m) (e : Expr) : m Expr := do
  match ← pass.replacement? e with
  | some r => return r
  | none =>
    match e with
    | number text t => pass.finish (number text t)
    | var name subscripts t => do
      let subscripts ← visitAll pass subscripts
      pass.finish (var name subscripts t)
    | unary op operand t => do
      let operand ← visit pass operand
      pass.finish (unary op operand t)
    | binary op lhs rhs t => do
      let lhs ← visit pass lhs
      let rhs ← visit pass rhs
      pass.finish (binary op lhs rhs t)
    | group items t => do
      let items ← visitAll pass items
      pass.finish (group items t)
    | command name arguments t => do
      let arguments ← visitAll pass arguments
      pass.finish (command name arguments t)
    | block name arguments statements t => do
      let statements ← visitAll pass statements
      pass.finish (block name arguments statements t)
    | prototype name parameters t => do
      let name ← visit pass name
      let parameters ← visitAll pass parameters
      pass.finish (prototype name parameters t)
    | function form name parameters head body closed t => do
      match ← pass.replacement? (prototype name parameters head) with
      | some r => do
        let body ← visit pass body
        let f : Function := ⟨form, name, parameters, head, body, closed, t⟩
        pass.finish (f.withPrototype r).toExpr
      | none => do
        let name ← visit pass name
        let parameters ← visitAll pass parameters
        let body ← visit pass body
        pass.finish (function form name parameters head body closed t)
    | call callee arguments t => do
      let callee ← visit pass callee
      let arguments ← visitAll pass arguments
      pass.finish (call callee arguments t)
    | binding target value t => do
      let target ← visit pass target
      let value ← visit pass value
      pass.finish (binding target value t)

/-- A list of expressions after a pass over each of them, in order. -/
def visitAll (pass : Pass m) : List Expr → m (List Expr)
  | [] => return []
  | e :: es => do
    let e ← visit pass e
    let es ← visitAll pass es
    return e :: es

end

/-- The expression rebuilt node by node. -/
def copy (e : Expr) : Expr := Id.run (visit ⟨fun _ => pure none, pure⟩ e)

/-! ## Substitution -/

/-- The value of the last binding whose key is equal to `x`. -/
def lastBound? (bindings : List (Expr × Expr)) (x : Expr) : Option Expr :=
  (bindings.reverse.find? fun b => b.1 == x).map (·.2)

/-- The pass that replaces bound variables and leaves the parameters of functions alone. -/
def substitution (bindings : List (Expr × Expr)) : Pass Id where
  replacement? e :=
    match e with
    | var _ _ _ => lastBound? bindings e
    | prototype _ _ _ => some e
    | _ => none
  finish e := e

/-- The expression with every variable that is equal to the key of a binding replaced by its value,
where of equal keys the last one counts. -/
def substitute (bindings : List (Expr × Expr)) (e : Expr) : Expr :=
  Id.run (visit (substitution bindings) e)

/-! ## Exchange of operands -/

/-- The expression with the operands of its root exchanged, if its root is an operator. -/
def exchanged : Expr → Expr
  | binary op lhs rhs t => binary op rhs lhs t
  | e => e

/-- The expression with the operands of every operator exchanged. -/
def exchangeOperands (e : Expr) : Expr :=
  Id.run (visit ⟨fun _ => pure none, fun e => pure e.exchanged⟩ e)

end Expr

end TexAlgebra
