import TexAlgebra.Session
import TexAlgebra.Proofs.Document
/-!
# Runs of sessions

However texts are divided into documents and statements, a session carries out one statement after
the other: `Session.carried_runAll`. So what holds of a session and is kept by every statement holds
throughout.
-/

namespace TexAlgebra.Session

/-- The outcomes of several texts that are run one after the other. An obstacle ends the text that
it occurs in. -/
def runAll : List String → Session → List (Except Obstacle Outcome × Session)
  | [], _ => []
  | source :: sources, s => s.run source ++ runAll sources (s.after (s.run source))

/-- Whether outcomes are those of statements that are carried out one after the other, starting from
a session. -/
def Carried : Session → List (Except Obstacle Outcome × Session) → Prop
  | _, [] => True
  | s, o :: l => (∃ statement, s.carryOut statement = o) ∧ Carried o.2 l

variable {s : Session} {l l' : List (Except Obstacle Outcome × Session)}

theorem after_cons (o : Except Obstacle Outcome × Session) : s.after (o :: l) = o.2.after l := by
  cases l with
  | nil => rfl
  | cons o' l =>
    rw [after, after, List.getLast?_cons_cons, List.getLast?_cons]
    rfl

/-- The session behind two runs is the one behind the second, started behind the first. -/
theorem after_append : s.after (l ++ l') = (s.after l).after l' := by
  induction l generalizing s with
  | nil => rfl
  | cons o l ih => rw [List.cons_append, after_cons, after_cons, ih]

/-- Two runs of which the second starts behind the first are one run. -/
theorem Carried.append (first : Carried s l) (second : Carried (s.after l) l') :
    Carried s (l ++ l') := by
  induction l generalizing s with
  | nil => exact second
  | cons o l ih =>
    rw [after_cons] at second
    exact ⟨first.1, ih first.2 second⟩

/-- A run that is cut off at an obstacle is a run. -/
theorem Carried.untilObstacle (h : Carried s l) : Carried s (untilObstacle l) := by
  induction l generalizing s with
  | nil => exact h
  | cons o l ih =>
    obtain ⟨result, s'⟩ := o
    cases result with
    | error o => exact ⟨h.1, trivial⟩
    | ok outcome => exact ⟨h.1, ih h.2⟩

/-- A run that is cut off has no other outcomes. -/
theorem untilObstacle_sublist {σ : Type} (l : List (Except Obstacle Outcome × σ)) :
    (Session.untilObstacle l).Sublist l := by
  induction l with
  | nil => exact .slnil
  | cons o l ih =>
    obtain ⟨result, s⟩ := o
    cases result with
    | error o => exact .cons_cons _ (List.nil_sublist l)
    | ok outcome => exact .cons_cons _ ih

/-- What is remembered of the sessions does not change where a run is cut off. -/
theorem untilObstacle_map {σ τ : Type} (f : σ → τ) (l : List (Except Obstacle Outcome × σ)) :
    (Session.untilObstacle l).map (fun o => (o.1, f o.2)) =
      Session.untilObstacle (l.map fun o => (o.1, f o.2)) := by
  induction l with
  | nil => rfl
  | cons o l ih =>
    obtain ⟨result, s⟩ := o
    cases result with
    | error o => rfl
    | ok outcome => exact congrArg (_ :: ·) ih

/-- The outcomes of a document are carried out one after the other. -/
theorem carried_process (d : Document) (s : Session) :
    Carried s (d.process knowsFunction carryOut s) := by
  cases next : d.next? s.knowsFunction with
  | none =>
    rw [Document.process_of_next?_eq_none next]
    trivial
  | some found =>
    obtain ⟨statement, rest⟩ := found
    rw [Document.process_of_next?_eq_some next]
    exact ⟨⟨statement, rfl⟩, carried_process rest _⟩
termination_by d.size
decreasing_by exact Document.size_lt_of_next? next

/-- The outcomes of a text are carried out one after the other. -/
theorem carried_run (source : String) (s : Session) : Carried s (s.run source) :=
  (carried_process _ s).untilObstacle

/-- All outcomes of a session are those of statements that are carried out one after the other. -/
theorem carried_runAll (sources : List String) (s : Session) : Carried s (s.runAll sources) := by
  induction sources generalizing s with
  | nil => trivial
  | cons source sources ih => exact (carried_run source s).append (ih _)

/-! ## Statements -/

/-- The ways in which a statement is executed: it is refused, its evaluation fails, or it has a
value. -/
inductive Executed (e : Expr) (s : Session) : Except Obstacle Outcome × Session → Prop
  | refused {failure : Failure} {types : Environment Classification}
      (checked : Typing.check e s.types = (.error failure, types)) :
    Executed e s (fail e failure { s with types := types })
  | failed {c : Classification} {types : Environment Classification} {failure : Failure}
      {evaluator : Evaluator} (checked : Typing.check e s.types = (.ok c, types))
      (evaluated : Evaluation.evaluate e s.evaluator = (.error failure, evaluator)) :
    Executed e s (fail e failure ⟨types, evaluator⟩)
  | succeeded {c : Classification} {types : Environment Classification} {v : Expr}
      {evaluator : Evaluator} (checked : Typing.check e s.types = (.ok c, types))
      (evaluated : Evaluation.evaluate e s.evaluator = (.ok v, evaluator)) :
    Executed e s (.ok ⟨some e, .ok v⟩, ⟨types, evaluator⟩)

/-- A statement is executed in one of the ways that are listed. -/
theorem executed (e : Expr) (s : Session) : Executed e s (s.execute e) := by
  unfold execute
  split
  · next checked => exact .refused checked
  · next checked =>
    split
    · next evaluated => exact .failed checked evaluated
    · next evaluated => exact .succeeded checked evaluated

/-- The outcome of a statement that fails is a fault. -/
theorem outcome_of_fail {e : Expr} {failure : Failure} {outcome : Outcome}
    (h : (fail e failure s).1 = .ok outcome) : ∃ fault, outcome = ⟨some e, .error fault⟩ := by
  cases failure with
  | fault fault =>
    cases h
    exact ⟨fault, rfl⟩
  | obstacle o =>
    cases o with
    | tooDeep =>
      cases h
      exact ⟨_, rfl⟩
    | _ => cases h

/-- An executed statement is shown in its outcome. -/
theorem Executed.parsed {e : Expr} {r : Except Obstacle Outcome × Session} {outcome : Outcome}
    (h : Executed e s r) (result : r.1 = .ok outcome) : outcome.parsed = some e := by
  cases h with
  | refused | failed =>
    obtain ⟨fault, rfl⟩ := outcome_of_fail result
    rfl
  | succeeded =>
    cases result
    rfl

end TexAlgebra.Session
