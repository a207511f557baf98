import TexAlgebra.Proofs.Evaluation.Results
import TexAlgebra.Proofs.Formula
/-!
# Evaluation after a substitution

The value of a formula depends on the values of its leaves alone. If each leaf has the same value in
one state as what is put in its place has in another, then so has the formula
(`Evaluation.agree_substitute`), and neither state changes. What is put in has more levels than the
leaf, so where there is not room for any number of them there may be too little of it.
-/

namespace TexAlgebra.Evaluation

variable {α β : Type} {s t : Evaluator} {limited : Prop}

/-- Whether `x` in the state `s` and `y` in the state `t` have the same result, be it a value or a
failure, and leave these states as they are. If room is limited, there may also be too little of it
for `y`. -/
def Agree (limited : Prop) (x : Eval α) (s : Evaluator) (y : Eval α) (t : Evaluator) : Prop :=
  ∃ r, x s = (r, s) ∧ (y t = (r, t) ∨ limited ∧ y t = (.error (.obstacle .tooDeep), t))

theorem agree_pure (a : α) : Agree limited (pure a) s (pure a) t := ⟨.ok a, rfl, .inl rfl⟩

theorem agree_throw (failure : Failure) :
    Agree limited (throw failure : Eval α) s (throw failure) t :=
  ⟨.error failure, rfl, .inl rfl⟩

/-- If first steps agree and all that may follow agrees, the whole agrees. -/
theorem Agree.bind {x y : Eval α} {f g : α → Eval β} (h : Agree limited x s y t)
    (next : ∀ a, Agree limited (f a) s (g a) t) : Agree limited (x >>= f) s (y >>= g) t := by
  obtain ⟨r, hx, hy⟩ := h
  cases r with
  | error failure =>
    exact ⟨.error failure, bind_of_error hx,
      hy.imp bind_of_error fun deep => ⟨deep.1, bind_of_error deep.2⟩⟩
  | ok a =>
    obtain ⟨r, hf, hg⟩ := next a
    refine ⟨r, (bind_of_ok hx).trans hf, ?_⟩
    rcases hy with hy | ⟨few, hy⟩
    · exact hg.imp (bind_of_ok hy).trans fun deep => ⟨deep.1, (bind_of_ok hy).trans deep.2⟩
    · exact .inr ⟨few, bind_of_error hy⟩

/-- A computation that agrees with a value may come before what goes on with this value. -/
theorem Agree.bind_pure {a : α} {x : Eval β} {y : Eval α} {g : α → Eval β}
    (h : Agree limited (pure a) s y t) (next : Agree limited x s (g a) t) :
    Agree limited x s (y >>= g) t := by
  obtain ⟨_, ⟨⟩, hy⟩ := h
  obtain ⟨r, hx, hg⟩ := next
  refine ⟨r, hx, ?_⟩
  rcases hy with hy | ⟨few, hy⟩
  · exact hg.imp (bind_of_ok hy).trans fun deep => ⟨deep.1, (bind_of_ok hy).trans deep.2⟩
  · exact .inr ⟨few, bind_of_error hy⟩

/-- Two steps one level further down agree if they agree in every room that is as limited as the one
there is. -/
theorem agree_nested {room : Room} {x y : Room → Eval α}
    (next : ∀ inner : Room, (inner ≠ .unbounded → room ≠ .unbounded) →
      Agree limited (x inner) s (y inner) t) :
    Agree limited (room.nested (throw (.obstacle .tooDeep)) x) s
      (room.nested (throw (.obstacle .tooDeep)) y) t := by
  cases room with
  | unbounded => exact next .unbounded id
  | levels n =>
    cases n with
    | zero => exact agree_throw _
    | succ n => exact next (.levels n) fun _ => Room.noConfusion

/-- A step one level further down agrees with a value if it does so in the room that is left, where
room counts as limited if it does not hold all levels of the step. -/
theorem agree_pure_nested {a : α} {room : Room} {n : Nat}
    (few : room.holds (n + 1) = false → limited) {y : Room → Eval α}
    (next : ∀ inner : Room, (inner.holds n = false → limited) →
      Agree limited (pure a) s (y inner) t) :
    Agree limited (pure a) s (room.nested (throw (.obstacle .tooDeep)) y) t := by
  obtain rfl | ⟨inner, fits, made⟩ := room.nested_cases (α := Eval α)
  · exact ⟨.ok a, rfl, .inr ⟨few rfl, rfl⟩⟩
  · rw [made]
    exact next inner fun h => few ((fits n).symm.trans h)

/-- What does not look at the state ends alike in any two states. -/
theorem agree_attempt (x : Except Obstacle α) : Agree limited (attempt x) s (attempt x) t := by
  cases x with
  | error o => exact agree_throw _
  | ok a => exact agree_pure a

/-- What a sign makes of a value does not depend on the state. -/
theorem agree_signed (op : Operator) (operand : Expr) (token : Option Token) :
    Agree limited (signed op operand token) s (signed op operand token) t := by
  cases operand with
  | number text u => exact (agree_attempt _).bind fun _ => agree_pure _
  | function => exact agree_throw _
  | _ => exact agree_pure _

/-- What an operator makes of two values does not depend on the state. -/
theorem agree_operation (op : Operator) (lhs rhs : Expr) (token : Option Token) :
    Agree limited (operation op lhs rhs token) s (operation op lhs rhs token) t := by
  unfold operation
  split
  · exact agree_throw _
  · split
    · exact agree_pure _
    · refine (agree_attempt _).bind fun result => ?_
      cases result with
      | none => exact agree_pure _
      | some text => exact agree_pure _
    · exact agree_pure _

variable {body : Room → Expr → Eval Expr} {room : Room}

/-- Two lists agree whose expressions agree one by one. -/
theorem agree_evaluateAllWith (f : Expr → Expr) {es : List Expr}
    (h : ∀ e ∈ es, Agree limited (evaluateWith body room e) s (evaluateWith body room (f e)) t) :
    Agree limited (evaluateAllWith body room es) s (evaluateAllWith body room (es.map f)) t := by
  induction es with
  | nil =>
    rw [List.map_nil, evaluateAllWith]
    exact agree_pure _
  | cons e es ih =>
    rw [List.map_cons, evaluateAllWith, evaluateAllWith]
    exact (h e List.mem_cons_self).bind fun v =>
      (ih fun e he => h e (List.mem_cons_of_mem _ he)).bind fun vs => agree_pure _

/-- If what is put in the place of each leaf of a formula has in the state `t` the value that the
leaf has in the state `s`, then the same holds for the formula. -/
theorem agree_substitute {n : Nat} {e : Expr} {bindings : List (Expr × Expr)}
    (h : e.IsFormula n)
    (leaves : ∀ l ∈ e.leaves, ∀ inner : Room, (inner ≠ .unbounded → room ≠ .unbounded) →
      Agree limited (evaluateWith body inner l) s
        (evaluateWith body inner (l.substitute bindings)) t) :
    Agree limited (evaluateWith body room e) s
      (evaluateWith body room (e.substitute bindings)) t := by
  induction h generalizing room with
  | number _ => exact leaves _ (List.mem_singleton_self _) room id
  | var _ => exact leaves _ (List.mem_singleton_self _) room id
  | unary _ inner =>
    rw [Expr.substitute_unary, evaluateWith, evaluateWith]
    refine agree_nested fun below few => ?_
    exact (inner fun l hl r le => leaves l hl r (few ∘ le)).bind fun v => agree_signed _ v _
  | binary _ _ left right =>
    rw [Expr.substitute_binary, evaluateWith, evaluateWith]
    refine agree_nested fun below few => ?_
    exact (left fun l hl r le => leaves l (List.mem_append_left _ hl) r (few ∘ le)).bind fun v =>
      (right fun l hl r le => leaves l (List.mem_append_right _ hl) r (few ∘ le)).bind fun w =>
        agree_operation _ v w _
  | group _ all =>
    rw [Expr.substitute_group, evaluateWith, evaluateWith]
    refine agree_nested fun below few => ?_
    -- leaves of an item are leaves of the group
    refine (agree_evaluateAllWith _ fun e he => all e he fun l hl r le => ?_).bind
      fun vs => agree_pure _
    exact leaves l (Expr.mem_leavesOfAll.2 ⟨e, he, hl⟩) r (few ∘ le)
  | command _ _ all =>
    rw [Expr.substitute_command, evaluateWith, evaluateWith]
    refine agree_nested fun below few => ?_
    refine (agree_evaluateAllWith _ fun e he => all e he fun l hl r le => ?_).bind
      fun vs => agree_pure _
    exact leaves l (Expr.mem_leavesOfAll.2 ⟨e, he, hl⟩) r (few ∘ le)

end TexAlgebra.Evaluation
