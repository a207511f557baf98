import TexAlgebra.Proofs.Computation.Abridged
import TexAlgebra.Typing
/-!
# Checks in less room

Like an evaluation, a check ends early where there is too little room for it, and otherwise it ends
as it does in any other room (`Typing.abridges_classifyWithin`).
-/

namespace TexAlgebra.Typing

variable {α : Type} {room room' : Room} {body body' : Room → Expr → Check Classification}

/-- A scope around two checks keeps what the one abridges of the other. -/
theorem abridges_inScope {x y : Check α} (bindings : List (Expr × Classification))
    (h : Abridges x y) : Abridges (inScope room bindings x) (inScope room' bindings y) := by
  have entered : Abridges (do set (← attempt ((← get).setAll bindings)); x)
      (do set (← attempt ((← get).setAll bindings)); y) :=
    (abridges_refl _).bind fun env =>
      (abridges_refl (attempt (env.setAll bindings))).bind fun env =>
        (abridges_refl (set env)).bind fun _ => h
  exact entered.between_unless

mutual

/-- With more room for levels and for calls an expression has the same classification, unless it had
run out of one of them. -/
theorem abridges_classifyWith
    (deeper : ∀ r r', r ≤ r' → ∀ e, Abridges (body r e) (body' r' e)) {room room' : Room}
    (le : room ≤ room') (e : Expr) :
    Abridges (classifyWith body room e) (classifyWith body' room' e) := by
  rw [classifyWith, classifyWith]
  refine abridges_nested le fun room room' le => ?_
  cases e with
  | number | var | prototype | function => exact abridges_refl _
  | unary op operand token =>
    exact (abridges_classifyWith deeper le operand).bind fun _ => abridges_refl _
  | binary op lhs rhs token =>
    exact (abridges_classifyWith deeper le lhs).bind fun _ =>
      (abridges_classifyWith deeper le rhs).bind fun _ => abridges_refl _
  | group items token =>
    exact (abridges_classifyAllWith deeper le items).bind fun _ => abridges_refl _
  | command name arguments token =>
    exact (abridges_classifyAllWith deeper le arguments).bind fun _ => abridges_refl _
  | block name arguments statements token =>
    exact (abridges_classifyAllWith deeper le statements).bind fun _ => abridges_refl _
  | call callee arguments token =>
    refine (abridges_classifyWith deeper le callee).bind fun c => (abridges_refl _).bind fun r =>
      (abridges_classifyAllWith deeper le arguments).bind fun cs => ?_
    dsimp only
    split
    · exact abridges_inScope _ (deeper _ _ le _)
    · exact abridges_refl _
  | binding target value token =>
    exact (abridges_classifyWith deeper le value).bind fun _ => abridges_refl _

/-- The same for the expressions of a list, one after the other. -/
theorem abridges_classifyAllWith
    (deeper : ∀ r r', r ≤ r' → ∀ e, Abridges (body r e) (body' r' e)) {room room' : Room}
    (le : room ≤ room') (es : List Expr) :
    Abridges (classifyAllWith body room es) (classifyAllWith body' room' es) := by
  cases es with
  | nil =>
    rw [classifyAllWith, classifyAllWith]
    exact abridges_refl _
  | cons e es =>
    rw [classifyAllWith, classifyAllWith]
    exact (abridges_classifyWith deeper le e).bind fun _ =>
      (abridges_classifyAllWith deeper le es).bind fun _ => abridges_refl _

end

/-- With more depth and more room a check that did not fail for want of them ends in the same way.
-/
theorem abridges_classifyWithin {inner outer : Nat} (deeper : inner ≤ outer) {room room' : Room}
    (le : room ≤ room') (e : Expr) :
    Abridges (classifyWithin inner room e) (classifyWithin outer room' e) := by
  induction inner generalizing outer room room' e with
  | zero => exact abridges_tooDeep _
  | succ inner ih =>
    obtain ⟨outer, rfl⟩ := Nat.exists_eq_succ_of_ne_zero (Nat.ne_zero_of_lt deeper)
    exact abridges_classifyWith (fun _ _ le e => ih (Nat.succ_le_succ_iff.1 deeper) le e) le e

/-- The same for a statement. -/
theorem abridges_checkStatement {inner outer : Nat} (deeper : inner ≤ outer) {room room' : Room}
    (le : room ≤ room') (e : Expr) :
    Abridges (checkStatement inner room e) (checkStatement outer room' e) := by
  have written : Abridges (attempt (e.texWithin room .oneLine))
      (attempt (e.texWithin room' .oneLine)) := by
    obtain deep | same := texWithin_of_le le .oneLine e
    · rw [deep]
      exact abridges_tooDeep _
    · rw [same]
      exact abridges_refl _
  exact (abridges_classifyWithin deeper le e).bind fun _ => written.bind fun _ => abridges_refl _

end TexAlgebra.Typing
