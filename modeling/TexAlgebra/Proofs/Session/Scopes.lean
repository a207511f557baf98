import TexAlgebra.Proofs.Session.Definitions
import TexAlgebra.Proofs.Session.Runs
/-!
# Scopes of a session

Calls open scopes and leave them again, whether or not they come to an end. Only where there was too
little room scopes can have stayed open, and these are dropped when the statement is given up. So
between two statements of a session no scope is open in either of its environments, and a statement
changes their global scopes by its own definitions and by nothing that was bound during a call
(`Session.scopes_left`).
-/

namespace TexAlgebra.Session

variable {s : Session} {l : List (Except Obstacle Outcome × Session)}

/-! ## Sessions at rest -/

/-- Whether no call is under way. -/
structure IsAtRest (s : Session) : Prop where
  types : s.types.depth = 0
  values : s.environment.depth = 0

/-- In the initial session no scope is open. -/
theorem isAtRest_initial : initial.IsAtRest := ⟨rfl, rfl⟩

/-! ## Statements -/

/-- What the statement defines, if it could be read. -/
def definitionsOf : Statement → List Expr
  | .ok e => e.definitions
  | .error _ => []

/-- Whether a session comes about from another one at rest when some of the variables `xs` are bound
in each of its environments. -/
structure Extends (xs : List Expr) (s s' : Session) : Prop where
  types : s.types.Extends xs s'.types
  values : s.environment.Extends xs s'.environment

/-- A session extends itself. -/
theorem Extends.refl (xs : List Expr) (s : Session) : s.Extends xs s := ⟨.refl _ _, .refl _ _⟩

/-- Variables are bound where no scope is open without opening one. -/
theorem Extends.isAtRest {xs : List Expr} {s' : Session} (h : s.Extends xs s')
    (rest : s.IsAtRest) : s'.IsAtRest :=
  ⟨h.types.sameOutside.depth.trans rest.types, h.values.sameOutside.depth.trans rest.values⟩

/-- What a failure leaves of a session, the scopes of calls that were under way being dropped. -/
theorem IsAtRest.extends_fail {xs : List Expr} {failure : Failure}
    {types : Environment Classification} {evaluator : Evaluator} (h : s.IsAtRest)
    (classified : failure.Leaves xs s.types types)
    (valued : failure.Leaves xs s.environment evaluator.environment) (e : Expr) :
    s.Extends xs (Session.fail e failure ⟨types, evaluator⟩).2 := by
  cases failure with
  | fault => exact ⟨classified.extends nofun, valued.extends nofun⟩
  | obstacle o =>
    cases o with
    | tooDeep => exact ⟨classified.unwind h.types, valued.unwind h.values⟩
    | _ => exact ⟨classified.extends nofun, valued.extends nofun⟩

/-- However a statement ends, all it does to the session is to bind some of what it defines. Scopes
that stay open are closed before the next one. -/
theorem Executed.extends {e : Expr} {r : Except Obstacle Outcome × Session}
    (h : Executed e s r) (rest : s.IsAtRest) : s.Extends e.definitions r.2 := by
  have check := Typing.binds_check e s.types
  have evaluate := Evaluation.binds_evaluate e s.evaluator
  cases h with
  | refused checked =>
    exact rest.extends_fail (check.of_error checked) (Failure.leaves_of_extends (.refl _ _)) e
  | failed checked evaluated =>
    exact rest.extends_fail (Failure.leaves_of_extends (check.of_ok checked))
      (evaluate.of_error evaluated) e
  | succeeded checked evaluated => exact ⟨check.of_ok checked, evaluate.of_ok evaluated⟩

/-- A statement binds what it defines and nothing else. -/
theorem IsAtRest.extends_carryOut (h : s.IsAtRest) (statement : Statement) :
    s.Extends (definitionsOf statement) (s.carryOut statement).2 := by
  cases statement with
  | error fault => exact .refl _ s
  | ok e => exact (executed e s).extends h

/-- A statement leaves no scope open, also if it was not read. -/
theorem IsAtRest.carryOut (h : s.IsAtRest) (statement : Statement) :
    (s.carryOut statement).2.IsAtRest :=
  (h.extends_carryOut statement).isAtRest h

/-! ## Runs -/

/-- The sessions that are reached from the initial one by carrying out statements. -/
inductive IsReachable : Session → Prop
  | initial : IsReachable initial
  | carryOut {s : Session} (h : IsReachable s) (statement : Statement) :
    IsReachable (s.carryOut statement).2

/-- In every session that can be reached no scope is open. -/
theorem IsReachable.isAtRest (h : s.IsReachable) : s.IsAtRest := by
  induction h with
  | initial => exact isAtRest_initial
  | carryOut _ statement ih => exact ih.carryOut statement

/-- Each outcome is that of a statement that is carried out in the session after the outcomes before
it. -/
theorem Carried.getElem (h : Carried s l) (i : Nat) (hi : i < l.length) :
    ∃ statement, (s.after (l.take i)).carryOut statement = l[i] := by
  induction l generalizing s i with
  | nil => cases hi
  | cons o l ih =>
    cases i with
    | zero => exact h.1
    | succ i =>
      rw [List.take_succ_cons, after_cons]
      exact ih h.2 i (Nat.lt_of_succ_lt_succ hi)

/-- The session behind one more outcome is the one of that outcome. -/
theorem after_take_succ {i : Nat} (hi : i < l.length) : s.after (l.take (i + 1)) = l[i].2 := by
  rw [after, List.getLast?_take, if_neg (Nat.succ_ne_zero i), Nat.add_sub_cancel,
    List.getElem?_eq_getElem hi]
  rfl

/-- Every session of a run can be reached. -/
theorem Carried.isReachable (h : Carried s l) (reached : s.IsReachable) (i : Nat) :
    (s.after (l.take i)).IsReachable := by
  induction l generalizing s i with
  | nil =>
    rw [List.take_nil]
    exact reached
  | cons o l ih =>
    cases i with
    | zero => exact reached
    | succ i =>
      rw [List.take_succ_cons, after_cons]
      obtain ⟨⟨statement, rfl⟩, rest⟩ := h
      exact ih rest (reached.carryOut statement) i

/-- Evaluating or checking an expression leaves all scopes but the innermost one as they are,
however it ends, unless there was too little room for it. A scope that was opened for it is always
there to be closed then, even if there was too little room. So no scope is open after an outcome of
a session, a recursion that went too deep and an obstacle included, and what is bound then differs
from what was bound before by definitions of the statement itself: nothing that is bound during a
call stays. -/
theorem scopes_left :
    (∀ depth room e (s : Evaluator), ranOut (Evaluation.evaluateWithin depth room e s).1 = false →
      s.environment.SameOutside (Evaluation.evaluateWithin depth room e s).2.environment) ∧
    (∀ depth room e (types : Environment Classification),
      ranOut (Typing.classifyWithin depth room e types).1 = false →
        types.SameOutside (Typing.classifyWithin depth room e types).2) ∧
    (∀ depth room e bindings (env : Environment Expr) (s : Evaluator),
      env.push.setAll bindings = .ok s.environment →
        let left := (Evaluation.evaluateWithin depth room e s).2.environment
        left.pop = .ok left.leave) ∧
    (∀ depth room e bindings (env types : Environment Classification),
      env.push.setAll bindings = .ok types →
        let left := (Typing.classifyWithin depth room e types).2
        left.pop = .ok left.leave) ∧
    ∀ (sources : List String) (i : Nat) (h : i < (initial.runAll sources).length),
      (initial.runAll sources)[i].2.IsAtRest ∧
        ∃ statement,
          (initial.after ((initial.runAll sources).take i)).carryOut statement =
            (initial.runAll sources)[i] ∧
          (initial.after ((initial.runAll sources).take i)).Extends (definitionsOf statement)
            (initial.runAll sources)[i].2 := by
  refine ⟨fun depth room e s enough => ?_, fun depth room e types enough => ?_,
    fun depth room e bindings env s made => ?_, fun depth room e bindings env types made => ?_,
    fun sources i h => ?_⟩
  · exact ((Evaluation.binds_evaluateWithin depth room e).extends s enough).sameOutside
  · exact ((Typing.binds_classifyWithin depth room e).extends types enough).sameOutside
  · exact (Evaluation.binds_evaluateWithin depth room e).pop_eq made
  · exact (Typing.binds_classifyWithin depth room e).pop_eq made
  · have carried := carried_runAll sources initial
    have reached := carried.isReachable .initial i
    obtain ⟨statement, outcome⟩ := carried.getElem i h
    rw [← outcome]
    exact ⟨reached.isAtRest.carryOut statement, statement, rfl,
      reached.isAtRest.extends_carryOut statement⟩

/-- Without any room left for the body of `f`, the scope of a call stays open until the statement is
given up. -/
example :
    let f : Expr := .var "f" [] none
    let one : Expr := .number "1" none
    let s : Evaluator := ⟨⟨[(f, .function .defined f [] none one [] none)], []⟩, 0⟩
    let ended := Evaluation.evaluateWithin 2 (.levels 1) (.call f [] none) s
    ended.1 = .error (.obstacle .tooDeep) ∧ ended.2.environment.depth = 1 ∧
      ended.2.environment.unwind = s.environment := by
  intro f one s ended
  have open_ :
      ended = (.error (.obstacle .tooDeep), { s with environment := s.environment.push }) := rfl
  rw [open_]
  exact ⟨rfl, rfl, rfl⟩

end TexAlgebra.Session
