import TexAlgebra.Proofs.Unplaced.Typing
import TexAlgebra.Session
/-!
# Sessions without places

A statement without places, carried out in a session without places, has the outcome of the
statement, without the places (`Session.execute_unplaced`). So sessions that differ in places alone
go on to do so, and know the same functions.
-/

namespace TexAlgebra

/-- The outcome with all its tokens at the start of a text. -/
def Outcome.unplaced (o : Outcome) : Outcome where
  parsed := o.parsed.map Expr.unplaced
  result := match o.result with
    | .ok v => .ok v.unplaced
    | .error fault => .error fault.unplaced

namespace Session

/-- The session with all tokens at the start of a text. -/
def unplaced (s : Session) : Session :=
  ⟨s.types.stripped Classification.unplaced, s.evaluator.unplaced⟩

/-- The result of a statement with all its tokens at the start of a text. -/
def unplacedResult (r : Except Obstacle Outcome × Session) : Except Obstacle Outcome × Session :=
  (r.1.map Outcome.unplaced, r.2.unplaced)

/-- A failure is reported without places as it is with them. -/
theorem fail_unplaced (e : Expr) (failure : Failure) (s : Session) :
    fail e.unplaced failure.unplaced s.unplaced = unplacedResult (fail e failure s) := by
  cases failure with
  | fault fault => rfl
  | obstacle o =>
    cases o with
    | tooDeep =>
      show (Except.ok _, _) = (Except.ok _, _)
      rw [Expr.token_unplaced]
      rfl
    | _ => rfl

/-- Executing without places is executing, without the places. -/
theorem execute_unplaced (e : Expr) (s : Session) :
    execute e.unplaced s.unplaced = unplacedResult (execute e s) := by
  unfold execute
  obtain ⟨c, _, types, _, checked, checked', rfl, rfl⟩ |
      ⟨failure, _, types, _, checked, checked', rfl, rfl⟩ :=
    (Typing.unplaces_check e).ends (s := s.types) rfl
  · have evaluated := (Evaluation.unplaces_evaluate e).ends (s := s.evaluator) rfl
    -- it was accepted, so the evaluation decides
    have checked : (Typing.check e).run s.types = (.ok c, types) := checked
    have checked' : (Typing.check e.unplaced).run s.unplaced.types =
      (.ok c.unplaced, types.stripped Classification.unplaced) := checked'
    rw [checked, checked']
    obtain ⟨v, _, evaluator, _, run, run', rfl, rfl⟩ |
      ⟨failure, _, evaluator, _, run, run', rfl, rfl⟩ := evaluated
    · have run : (Evaluation.evaluate e).run s.evaluator = (.ok v, evaluator) := run
      have run' : (Evaluation.evaluate e.unplaced).run s.unplaced.evaluator =
        (.ok v.unplaced, evaluator.unplaced) := run'
      dsimp only
      rw [run, run']
      rfl
    · have run : (Evaluation.evaluate e).run s.evaluator = (.error failure, evaluator) := run
      have run' : (Evaluation.evaluate e.unplaced).run s.unplaced.evaluator =
        (.error failure.unplaced, evaluator.unplaced) := run'
      dsimp only
      rw [run, run']
      exact fail_unplaced e failure ⟨types, evaluator⟩
  · -- it was refused by the checker
    have checked : (Typing.check e).run s.types = (.error failure, types) := checked
    have checked' : (Typing.check e.unplaced).run s.unplaced.types =
      (.error failure.unplaced, types.stripped Classification.unplaced) := checked'
    rw [checked, checked']
    exact fail_unplaced e failure { s with types := types }

/-- Which functions a session knows does not depend on places. -/
theorem knowsFunction_unplaced (s : Session) (x : Expr) :
    s.unplaced.knowsFunction x.unplaced = s.knowsFunction x :=
  s.evaluator.knowsFunction_unplaced x

/-- Sessions that are the same but for places execute statements that are the same but for places
alike. -/
theorem execute_congr {e e' : Expr} {s s' : Session} (same : e.unplaced = e'.unplaced)
    (sessions : s.unplaced = s'.unplaced) :
    unplacedResult (execute e s) = unplacedResult (execute e' s') := by
  rw [← execute_unplaced, ← execute_unplaced, same, sessions]

/-- Whether a variable is known as a function does not depend on places. -/
theorem knowsFunction_congr {x x' : Expr} {s s' : Session} (same : x.unplaced = x'.unplaced)
    (sessions : s.unplaced = s'.unplaced) : s.knowsFunction x = s'.knowsFunction x' := by
  rw [← knowsFunction_unplaced s, same, sessions, knowsFunction_unplaced]

end Session

end TexAlgebra
