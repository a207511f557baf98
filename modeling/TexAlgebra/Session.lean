import TexAlgebra.Document
import TexAlgebra.Evaluation
import TexAlgebra.Typing
/-!
# Sessions

A session carries out documents statement by statement: a statement is read, checked and evaluated
before the next one is read, so a statement can call every function that was bound before it.
Checking and evaluation have an environment each. A fault of a statement is its outcome and stops
nothing, and so is a recursion that goes too deep, after which all scopes are closed; a number that
cannot be computed or written out ends the document.
-/

namespace TexAlgebra

/-- What became of a statement: its tree if it could be read, and its value or its fault. -/
structure Outcome where
  parsed : Option Expr
  result : Except Fault Expr

/-- What is bound in a session: classifications for checking, and values. -/
structure Session where
  types : Environment Classification
  evaluator : Evaluator
  deriving Repr, Inhabited

namespace Session

/-- The session in which nothing is bound. -/
def initial : Session := ⟨.empty, .initial⟩

/-- The values that are bound in a session. -/
def environment (s : Session) : Environment Expr := s.evaluator.environment

/-- Whether a variable is bound to a function. -/
def knowsFunction (s : Session) (x : Expr) : Bool := s.evaluator.knowsFunction x

/-- The session with the calls that were under way given up. -/
def unwind (s : Session) : Session where
  types := s.types.unwind
  evaluator := { s.evaluator with environment := s.environment.unwind }

/-- What a failure makes of a statement. A recursion that goes too deep is a fault of the statement,
and the scopes that it left open are closed; any other obstacle ends the document. -/
def fail (e : Expr) (failure : Failure) (s : Session) : Except Obstacle Outcome × Session :=
  match failure with
  | .fault fault => (.ok ⟨some e, .error fault⟩, s)
  | .obstacle .tooDeep => (.ok ⟨some e, .error ⟨.tooDeep, e.token⟩⟩, s.unwind)
  | .obstacle o => (.error o, s)

/-- Checks and evaluates a statement. -/
def execute (e : Expr) (s : Session) : Except Obstacle Outcome × Session :=
  match (Typing.check e).run s.types with
  | (.error failure, types) => fail e failure { s with types := types }
  | (.ok _, types) =>
    match (Evaluation.evaluate e).run s.evaluator with
    | (.error failure, evaluator) => fail e failure ⟨types, evaluator⟩
    | (.ok value, evaluator) => (.ok ⟨some e, .ok value⟩, ⟨types, evaluator⟩)

/-- Carries out a statement, or passes on the fault found in its place. -/
def carryOut (statement : Statement) (s : Session) : Except Obstacle Outcome × Session :=
  match statement with
  | .ok e => s.execute e
  | .error fault => (.ok ⟨none, .error fault.toFault⟩, s)

/-- The outcomes up to the first obstacle, which is included. -/
def untilObstacle {σ : Type} :
    List (Except Obstacle Outcome × σ) → List (Except Obstacle Outcome × σ)
  | [] => []
  | (.error o, s) :: _ => [(.error o, s)]
  | (.ok outcome, s) :: rest => (.ok outcome, s) :: untilObstacle rest

/-- The outcomes of the statements of a text, each with the session after it. An obstacle is the
last of them. -/
def run (source : String) (s : Session) : List (Except Obstacle Outcome × Session) :=
  untilObstacle ((Document.ofText source).process knowsFunction carryOut s)

/-- The session after some outcomes. -/
def after (s : Session) (outcomes : List (Except Obstacle Outcome × Session)) : Session :=
  (outcomes.getLast?.map (·.2)).getD s

end Session

end TexAlgebra
