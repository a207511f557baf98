import TexAlgebra.Proofs.Computation.Abridged
import TexAlgebra.Proofs.Evaluation.Results
/-!
# Depth and room

The number of calls that may be nested in one another and the number of levels that there is room
for decide whether an evaluation ends, and not what it ends with: with more of them an evaluation
that did not end early for want of them has the same result (`Evaluation.abridges_evaluateWithin`).
So what holds of the results where there is room for any number of levels also holds of those that
are reached in less room.
-/

namespace TexAlgebra.Evaluation

variable {α : Type}

variable {room room' : Room}

/-- With more room an expression that could be written out still can. -/
theorem abridges_requireText (le : room ≤ room') (style : Style) (e : Expr) :
    Abridges (requireText room style e) (requireText room' style e) := by
  have written : Abridges (attempt (e.texWithin room style))
      (attempt (e.texWithin room' style)) := by
    obtain deep | same := texWithin_of_le le style e
    · rw [deep]
      exact abridges_tooDeep _
    · rw [same]
      exact abridges_refl _
  exact written.bind fun _ => abridges_refl _

/-- A scope around two actions keeps what the one abridges of the other. -/
theorem abridges_inScope {x y : Eval α} (bindings : List (Expr × Expr)) (h : Abridges x y) :
    Abridges (inScope room bindings x) (inScope room' bindings y) :=
  ((abridges_refl (update (·.setAll bindings))).bind fun _ => h).between_unless

variable {body body' : Room → Expr → Eval Expr}

/-- With more room a partial application comes to the same, unless it had run out of room. -/
theorem abridges_curry (le : room ≤ room') (f : Function) (arguments : List Expr)
    (token : Option Token) :
    Abridges (curry room f arguments token) (curry room' f arguments token) :=
  (abridges_refl _).bind fun _ => (abridges_refl _).bind fun _ =>
    (abridges_requireText le _ _).bind fun _ => (abridges_requireText le _ _).bind fun _ =>
      abridges_refl _

/-- A call whose body may go deeper comes to the same, unless it had ended for want of depth. -/
theorem abridges_apply
    (deeper : ∀ r r', r ≤ r' → ∀ e, Abridges (body r e) (body' r' e))
    (le : room ≤ room') (callee : Expr) (arguments : List Expr) (token : Option Token) :
    Abridges (apply body room callee arguments token)
      (apply body' room' callee arguments token) := by
  refine (abridges_refl _).bind fun value => ?_
  split
  · exact abridges_refl _
  · next f _ =>
    split
    · exact abridges_refl _
    · split
      · exact abridges_inScope _ (deeper _ _ le f.body)
      · exact abridges_curry le f arguments token

/-- With more room a definition comes to the same, unless it had run out of room. -/
theorem abridges_define (le : room ≤ room') (target value : Expr) (token : Option Token) :
    Abridges (define room target value token) (define room' target value token) := by
  unfold define
  split
  · exact abridges_refl _
  · exact (abridges_refl _).bind fun _ => (abridges_requireText le _ _).bind fun _ =>
      (abridges_requireText le _ _).bind fun _ => abridges_refl _

mutual

/-- With more room for levels and for calls an expression has the same result, unless it had run out
of one of them. -/
theorem abridges_evaluateWith
    (deeper : ∀ r r', r ≤ r' → ∀ e, Abridges (body r e) (body' r' e)) {room room' : Room}
    (le : room ≤ room') (e : Expr) :
    Abridges (evaluateWith body room e) (evaluateWith body' room' e) := by
  rw [evaluateWith, evaluateWith]
  refine abridges_nested le fun room room' le => ?_
  cases e with
  | number | var | prototype => exact abridges_refl _
  | function form name parameters head inner closed token =>
    exact (abridges_refl _).bind fun _ => (abridges_requireText le _ _).bind fun _ =>
      abridges_refl _
  | unary op operand token =>
    exact (abridges_evaluateWith deeper le operand).bind fun _ => abridges_refl _
  | binary op lhs rhs token =>
    exact (abridges_evaluateWith deeper le lhs).bind fun _ =>
      (abridges_evaluateWith deeper le rhs).bind fun _ => abridges_refl _
  | group items token =>
    exact (abridges_evaluateAllWith deeper le items).bind fun _ => abridges_refl _
  | command name arguments token =>
    exact (abridges_evaluateAllWith deeper le arguments).bind fun _ => abridges_refl _
  | block name arguments statements token =>
    exact (abridges_evaluateAllWith deeper le statements).bind fun _ => abridges_refl _
  | call callee arguments token =>
    exact (abridges_evaluateAllWith deeper le arguments).bind fun vs =>
      abridges_apply deeper le callee vs token
  | binding target value token =>
    exact (abridges_evaluateWith deeper le value).bind fun v => abridges_define le target v token

/-- The same for the expressions of a list, one after the other. -/
theorem abridges_evaluateAllWith
    (deeper : ∀ r r', r ≤ r' → ∀ e, Abridges (body r e) (body' r' e)) {room room' : Room}
    (le : room ≤ room') (es : List Expr) :
    Abridges (evaluateAllWith body room es) (evaluateAllWith body' room' es) := by
  cases es with
  | nil =>
    rw [evaluateAllWith, evaluateAllWith]
    exact abridges_refl _
  | cons e es =>
    rw [evaluateAllWith, evaluateAllWith]
    exact (abridges_evaluateWith deeper le e).bind fun _ =>
      (abridges_evaluateAllWith deeper le es).bind fun _ => abridges_refl _

end

/-- With more depth and more room an evaluation that did not fail for want of them comes to the
same. -/
theorem abridges_evaluateWithin {inner outer : Nat} (deeper : inner ≤ outer) {room room' : Room}
    (le : room ≤ room') (e : Expr) :
    Abridges (evaluateWithin inner room e) (evaluateWithin outer room' e) := by
  induction inner generalizing outer room room' e with
  | zero => exact abridges_tooDeep _
  | succ inner ih =>
    obtain ⟨outer, rfl⟩ := Nat.exists_eq_succ_of_ne_zero (Nat.ne_zero_of_lt deeper)
    exact abridges_evaluateWith (fun _ _ le e => ih (Nat.succ_le_succ_iff.1 deeper) le e) le e

/-- What a statement is evaluated to in some room it is evaluated to in more. -/
theorem abridges_evaluateStatement {inner outer : Nat} (deeper : inner ≤ outer) {room room' : Room}
    (le : room ≤ room') (e : Expr) :
    Abridges (evaluateStatement inner room e) (evaluateStatement outer room' e) :=
  (abridges_evaluateWithin deeper le e).bind fun _ =>
    (abridges_requireText le _ _).bind fun _ => (abridges_requireText le _ _).bind fun _ =>
      abridges_refl _

/-! ## Statements -/

/-- What a statement is evaluated to is the value of its expression, whether or not there is room
for it, and can be written out. -/
theorem ok_of_evaluateStatement {depth : Nat} {room : Room} {e v : Expr} {s t : Evaluator}
    (h : evaluateStatement depth room e s = (.ok v, t)) :
    evaluateWithin depth room e s = (.ok v, t) ∧ room.holds v.height = true ∧
      ∃ text, v.tex .oneLine = .ok text := by
  obtain ⟨w, r, evaluated, h⟩ := ok_of_bind h
  obtain ⟨_, r', written, h⟩ := ok_of_bind h
  obtain ⟨-, rfl⟩ := ok_of_requireText written
  obtain ⟨_, r', written, h⟩ := ok_of_bind h
  obtain ⟨text, rfl⟩ := ok_of_requireText written
  obtain ⟨rfl, rfl⟩ := ok_of_pure h
  exact ⟨evaluated, text⟩

/-- The value of a statement of a session is that of its expression where there is room for any
number of levels. -/
theorem ok_of_evaluate {e v : Expr} {s t : Evaluator} (h : evaluate e s = (.ok v, t)) :
    evaluateWithin maxLevels .unbounded e s = (.ok v, t) ∧
      (Room.levels maxLevels).holds v.height = true ∧ ∃ text, v.tex .oneLine = .ok text := by
  obtain ⟨evaluated, text⟩ := ok_of_evaluateStatement h
  exact ⟨(abridges_evaluateWithin (Nat.le_refl _) (Room.le_unbounded _) e).of_ok evaluated, text⟩

end TexAlgebra.Evaluation
