import TexAlgebra.Expr.Expansion
import TexAlgebra.Proofs.Computation
import Mathlib.Data.List.Forall2
/-!
# Passes over expressions

A pass puts something in place of every node of an expression. If a relation holds between a node
and what replaces it, and if it can be lifted from the parts of an expression to the expression
itself (`Expr.IsCongruence`), then it holds between an expression and what a pass makes of it. What
holds for one rule of expansion thus holds for a full expansion and for a single step:
`Expr.IsCongruence.of_expandBy`.
-/

namespace TexAlgebra

namespace Expr

/-- Whether an expression is a number, a name, a signed expression or an operation. -/
def isAlgebraic : Expr → Bool
  | number _ _ => true
  | var _ _ _ => true
  | unary _ _ _ => true
  | binary _ _ _ _ => true
  | _ => false

/-- Whether a relation can be lifted from the parts of an expression to the expression itself.
Nothing is asked of expressions that are not algebraic. -/
structure IsCongruence (R : Expr → Expr → Prop) : Prop where
  refl : ∀ e, R e e
  trans : ∀ {e r s}, R e r → R r s → R e s
  var : ∀ {name es rs t}, List.Forall₂ R es rs → R (.var name es t) (.var name rs t)
  unary : ∀ {op e r t}, R e r → R (.unary op e t) (.unary op r t)
  binary : ∀ {op a b c d t}, R a c → R b d → R (.binary op a b t) (.binary op c d t)
  other : ∀ {e r}, e.isAlgebraic = false → R e r

/-- Whether a relation holds between each node and all that a pass puts in its place. -/
structure IsLocal {m : Type → Type} [Monad m] (R : Expr → Expr → Prop) (results : Results m)
    (pass : Pass m) : Prop where
  replaced : ∀ e r, results.result (pass.replacement? e) (some r) → R e r
  finished : ∀ e r, results.result (pass.finish e) r → R e r

variable {R : Expr → Expr → Prop}

section

variable {m : Type → Type} [Monad m] {results : Results m} {pass : Pass m}

mutual

/-- What a pass does to each node it does to the whole expression. -/
theorem IsCongruence.of_visit (lifted : IsCongruence R) (nodes : IsLocal R results pass)
    (e r : Expr) (h : results.result (visit pass e) r) : R e r := by
  rw [visit.eq_def] at h
  obtain ⟨replacement, asked, h⟩ := results.of_bind h
  cases replacement with
  | some r' =>
    rw [← results.of_pure h]
    exact nodes.replaced e r' asked
  | none =>
    cases e with
    | number text t => exact nodes.finished _ r h
    | var name subscripts t =>
      obtain ⟨subscripts', visited, h⟩ := results.of_bind h
      exact lifted.trans (lifted.var (lifted.of_visitAll nodes subscripts subscripts' visited))
        (nodes.finished _ r h)
    | unary op operand t =>
      obtain ⟨operand', visited, h⟩ := results.of_bind h
      exact lifted.trans (lifted.unary (lifted.of_visit nodes operand operand' visited))
        (nodes.finished _ r h)
    | binary op lhs rhs t =>
      obtain ⟨lhs', visited_l, h⟩ := results.of_bind h
      obtain ⟨rhs', visited_r, h⟩ := results.of_bind h
      exact lifted.trans
        (lifted.binary (lifted.of_visit nodes lhs lhs' visited_l)
          (lifted.of_visit nodes rhs rhs' visited_r))
        (nodes.finished _ r h)
    | _ => exact lifted.other rfl

/-- A pass that relates nodes relates the expressions of a list one by one. -/
theorem IsCongruence.of_visitAll (lifted : IsCongruence R) (nodes : IsLocal R results pass)
    (es rs : List Expr) (h : results.result (visitAll pass es) rs) : List.Forall₂ R es rs := by
  cases es with
  | nil =>
    rw [visitAll] at h
    cases results.of_pure h
    exact .nil
  | cons e es =>
    rw [visitAll] at h
    obtain ⟨r, visited, h⟩ := results.of_bind h
    obtain ⟨rs', visited', h⟩ := results.of_bind h
    cases results.of_pure h
    exact .cons (lifted.of_visit nodes e r visited) (lifted.of_visitAll nodes es rs' visited')

end

end

/-! ## Expansion -/

/-- Full expansion relates an expression to its result if every contraction does. -/
theorem IsCongruence.of_expandWithin (lifted : IsCongruence R)
    (rule : ∀ e r, contract? e = .ok (some r) → R e r) (depth : Nat) (e r : Expr)
    (h : expandWithin depth e = .ok r) : R e r := by
  -- on the depth: what a rule yields is expanded again with one level less
  induction depth generalizing e r with
  | zero => cases h
  | succ depth ih =>
    have nodes : IsLocal R (Results.ofExcept Obstacle)
        ⟨fun _ => return none, expandWith.finish (expandWithin depth)⟩ := by
      constructor
      · intro e r h
        cases h
      · intro e r h
        obtain ⟨contracted, contracts, h⟩ := ok_of_bind h
        cases contracted with
        | none =>
          cases h
          exact lifted.refl e
        | some r' => exact lifted.trans (rule e r' contracts) (ih r' r h)
    exact lifted.of_visit nodes e r h

/-- A step relates an expression to its result if every contraction does. -/
theorem IsCongruence.isLocal_stepping (lifted : IsCongruence R)
    (rule : ∀ e r, contract? e = .ok (some r) → R e r) :
    IsLocal R (Results.ofState Bool Obstacle) stepping := by
  have of_bind := @(Results.ofState Bool Obstacle).of_bind
  have of_pure := @(Results.ofState Bool Obstacle).of_pure
  constructor
  · intro e r h
    obtain ⟨stepped, -, h⟩ := of_bind h
    split at h
    · cases of_pure h
      exact lifted.refl e
    -- the state only says whether a rule was applied before
    obtain ⟨contracted, ⟨s, t, run⟩, h⟩ := of_bind h
    obtain ⟨found, contracts, same⟩ := ok_of_bind run
    cases same
    cases contracted with
    | none => cases of_pure h
    | some r' =>
      obtain ⟨-, -, h⟩ := of_bind h
      cases of_pure h
      exact rule e _ contracts
  · intro e r h
    cases of_pure h
    exact lifted.refl e

/-- What holds between an expression and what a rule makes of it holds between an expression and its
expansion, be it a full expansion or a single step. -/
theorem IsCongruence.of_expandBy (lifted : IsCongruence R)
    (rule : ∀ e r, contract? e = .ok (some r) → R e r) {extent : Expansion} {e r : Expr}
    (h : expandBy extent e = .ok r) : R e r := by
  cases extent with
  | full => exact lifted.of_expandWithin rule expansionDepth e r h
  | once =>
    obtain ⟨⟨r', stepped⟩, visited, same⟩ := ok_of_bind h
    rw [← ok_of_pure same]
    exact lifted.of_visit (lifted.isLocal_stepping rule) e r' ⟨false, stepped, visited⟩

end Expr

end TexAlgebra
