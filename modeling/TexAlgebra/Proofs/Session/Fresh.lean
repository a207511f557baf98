import TexAlgebra.Proofs.Evaluation.Counted
import TexAlgebra.Proofs.Session.Answers
import TexAlgebra.Proofs.Typing.Variables
/-!
# Fresh names of a session

A session makes its fresh names in the partial applications of its statements. `Logged` keeps a list
of these beside the session. They form one chain from the start, so that the fresh names count up to
the counter of the session without a gap, and no name is made twice. The texts have names of letters
only, so fresh names come from nowhere else, and all that is bound or has become of a statement
mentions those alone that were made by then. As the arguments of an application are older than the
names that it makes, the parameters that it leaves do not occur in them
(`Session.Logged.runAll_fresh`).
-/

namespace TexAlgebra

open TexAlgebra.Expr

/-- Whether all variables that occur in what became of a statement have the property `P`. -/
structure Outcome.AllVariables (P : Expr → Prop) (outcome : Outcome) : Prop where
  parsed : ∀ e ∈ outcome.parsed, e.AllVariables P
  value : ∀ v, outcome.result = .ok v → v.AllVariables P
  fault : ∀ f, outcome.result = .error f → f.AllVariables P

/-- An outcome that is a fault shows the statement and what the fault cites. -/
theorem Outcome.allVariables_error {P : Expr → Prop} {parsed : Option Expr} {fault : Fault}
    (all : ∀ e ∈ parsed, e.AllVariables P) (cited : fault.AllVariables P) :
    Outcome.AllVariables P ⟨parsed, .error fault⟩ where
  parsed := all
  value _ valued := by cases valued
  fault f faulty := by
    cases faulty
    exact cited

namespace Session

variable {S : Token → Prop} {s : Session} {statement : Statement}

/-! ## Names of texts -/

/-- The identifiers of texts are names. -/
theorem isName_of_isTokenOf {texts : List String} {t : Token} (h : IsTokenOf texts t)
    (identifier : t.kind = .identifier) : IsName t.text := by
  obtain ⟨text, -, mem⟩ := h
  refine ⟨fun empty => ?_, Lexer.isLetter_of_mem_tokenize mem identifier⟩
  have nonempty := (Lexer.isLexed_tokenize mem).nonempty (by simp [identifier])
  exact nonempty (String.toList_eq_nil_iff.1 empty)

/-- What is read of texts mentions no fresh names. -/
theorem isMade_isBefore (named : ∀ t, S t → t.kind = .identifier → IsName t.text) :
    IsMade S (IsBefore 0) where
  number _ _ := .number
  var mem same all := .var (isOlder_of_isName (named _ mem same)) all
  unary _ _ inner := .unary inner
  binary left right _ := .binary left right
  group _ all := .group all
  items group := by
    cases group with
    | group all => exact all
  command _ _ all := .command all
  block _ all := .block all
  function named all _ inner _ :=
    .function named all inner (fun _ h => (List.not_mem_nil h).elim)
      fun _ h => (List.not_mem_nil h).elim
  call called all := .call called all
  binding bound inner _ := .binding bound inner

/-! ## Statements -/

/-- The number of the next fresh name. -/
def counter (s : Session) : Nat := s.evaluator.anonymous

/-- The partial applications on the way of carrying out a statement. What is refused by the check is
not evaluated. -/
def applications (statement : Statement) (s : Session) : List Application :=
  match statement with
  | .error _ => []
  | .ok e =>
    match (Typing.check e).run s.types with
    | (.error _, _) => []
    | (.ok _, _) => Evaluation.applications e s.evaluator

/-- Whether no fresh name occurs in the classifications that are bound, and all that occur in the
values have numbers below the counter. -/
structure IsCounted (s : Session) : Prop where
  types : Typing.AllVariables (IsOlder 0) s.types
  values : s.evaluator.IsCounted

/-- No name of the initial session is fresh. -/
theorem isCounted_initial : initial.IsCounted :=
  ⟨Environment.allBindings_empty, Environment.allBindings_empty⟩

/-- What a failure makes of a statement that is read from a text mentions no other fresh names, and
makes none. -/
theorem IsCounted.fail {e : Expr} {failure : Failure} (h : s.IsCounted) (he : e.IsBefore 0)
    (hf : failure.AllVariables (IsOlder s.counter)) :
    (Session.fail e failure s).2.IsCounted ∧ (Session.fail e failure s).2.counter = s.counter ∧
      ∀ outcome, (Session.fail e failure s).1 = .ok outcome →
        outcome.AllVariables (IsOlder s.counter) := by
  have parsed : ∀ e' ∈ some e, e'.IsBefore s.counter := by
    rintro _ ⟨⟩
    exact he.mono (Nat.zero_le _)
  cases failure with
  | fault fault =>
    refine ⟨h, rfl, ?_⟩
    rintro _ ⟨⟩
    exact Outcome.allVariables_error parsed hf
  | obstacle o =>
    cases o with
    | tooDeep =>
      refine ⟨⟨h.types.unwind, h.values.unwind⟩, rfl, ?_⟩
      rintro _ ⟨⟩
      exact Outcome.allVariables_error parsed fun _ found => by cases found
    | _ => exact ⟨h, rfl, fun _ stopped => by cases stopped⟩

/-- A statement that is not accepted applies nothing. -/
theorem applications_of_error {e : Expr} {failure : Failure} {types : Environment Classification}
    (checked : Typing.check e s.types = (.error failure, types)) :
    applications (.ok e) s = [] := by
  have checked : (Typing.check e).run s.types = (.error failure, types) := checked
  rw [applications, checked]

/-- A statement that is accepted applies what its evaluation applies. -/
theorem applications_of_ok {e : Expr} {c : Classification} {types : Environment Classification}
    (checked : Typing.check e s.types = (.ok c, types)) :
    applications (.ok e) s = Evaluation.applications e s.evaluator := by
  have checked : (Typing.check e).run s.types = (.ok c, types) := checked
  rw [applications, checked]

/-- A statement that is read from a text counts on through its partial applications, and all that it
leaves behind mentions the fresh names alone that were made by then. -/
theorem Executed.counts {e : Expr} {r : Except Obstacle Outcome × Session} (h : Executed e s r)
    (he : e.IsBefore 0) (hs : s.IsCounted) :
    r.2.IsCounted ∧ Evaluation.Chained s.counter (applications (.ok e) s) r.2.counter ∧
      ∀ outcome, r.1 = .ok outcome → outcome.AllVariables (IsOlder r.2.counter) := by
  have check := Typing.retains_check he s.types hs.types
  obtain ⟨evaluate, chained⟩ :=
    Evaluation.follows_evaluate he s.evaluator (Nat.zero_le _) hs.values
  cases h with
  | @refused failure types checked =>
    -- nothing is evaluated, so nothing is counted
    obtain ⟨kept, mentioned⟩ := check.of_error checked
    obtain ⟨counted, same, became⟩ := IsCounted.fail (s := { s with types := types })
      ⟨kept, hs.values⟩ he (mentioned.mono fun _ old => old.mono (Nat.zero_le _))
    rw [same, applications_of_error checked]
    exact ⟨counted, .nil, became⟩
  | @failed c types failure evaluator checked evaluated =>
    obtain ⟨values, mentioned⟩ := evaluate.of_error evaluated
    obtain ⟨counted, same, became⟩ := IsCounted.fail (s := ⟨types, evaluator⟩)
      ⟨(check.of_ok checked).1, values⟩ he (mentioned.mono fun _ => False.elim)
    rw [evaluated] at chained
    rw [same, applications_of_ok checked]
    exact ⟨counted, chained, became⟩
  | @succeeded c types v evaluator checked evaluated =>
    obtain ⟨values, old⟩ := evaluate.of_ok evaluated
    rw [evaluated] at chained
    rw [applications_of_ok checked]
    refine ⟨⟨(check.of_ok checked).1, values⟩, chained, ?_⟩
    rintro _ ⟨⟩
    refine ⟨?_, ?_, fun _ faulty => by cases faulty⟩
    · rintro _ ⟨⟩
      exact he.mono (Nat.zero_le _)
    · rintro _ ⟨⟩
      exact old

/-- A statement of a text keeps the names of the session counted, makes its applications as a chain,
and shows no name that is still to come. -/
theorem IsCounted.carryOut (h : s.IsCounted) (read : ∀ e, statement = .ok e → e.IsBefore 0) :
    (s.carryOut statement).2.IsCounted ∧
      Evaluation.Chained s.counter (applications statement s) (s.carryOut statement).2.counter ∧
      ∀ outcome, (s.carryOut statement).1 = .ok outcome →
        outcome.AllVariables (IsOlder (s.carryOut statement).2.counter) := by
  cases statement with
  | error fault =>
    refine ⟨h, .nil, ?_⟩
    rintro _ ⟨⟩
    exact Outcome.allVariables_error (fun _ read => by cases read) fun _ found => by cases found
  | ok e => exact (executed e s).counts (read e rfl) h

/-! ## Runs -/

/-- A session, and the partial applications that were met in it so far. -/
structure Logged where
  session : Session
  applications : List Application

namespace Logged

/-- The session in which nothing is bound. -/
def initial : Logged := ⟨.initial, []⟩

/-- The fresh names that were made so far. -/
def freshNames (l : Logged) : List Expr := l.applications.flatMap (·.freshNames)

/-- Carries out a statement, and notes its partial applications. -/
def carryOut (statement : Statement) (l : Logged) : Except Obstacle Outcome × Logged :=
  let carried := l.session.carryOut statement
  (carried.1, ⟨carried.2, l.applications ++ Session.applications statement l.session⟩)

/-- Whether a variable is bound to a function. -/
def knowsFunction (l : Logged) (x : Expr) : Bool := l.session.knowsFunction x

/-- The outcomes of the statements of a text. -/
def run (source : String) (l : Logged) : List (Except Obstacle Outcome × Logged) :=
  untilObstacle ((Document.ofText source).process knowsFunction carryOut l)

/-- The session after some outcomes. -/
def after (l : Logged) (outcomes : List (Except Obstacle Outcome × Logged)) : Logged :=
  (outcomes.getLast?.map (·.2)).getD l

/-- The outcomes of several texts that are run one after the other. -/
def runAll : List String → Logged → List (Except Obstacle Outcome × Logged)
  | [], _ => []
  | source :: sources, l => run source l ++ runAll sources (after l (run source l))

variable {l : Logged}

/-- Without the notes, a run is one of the session. -/
theorem run_session (source : String) (l : Logged) :
    (run source l).map (fun o => (o.1, o.2.session)) = l.session.run source := by
  have mapped : ((Document.ofText source).process knowsFunction carryOut l).map
      (fun o => (o.1, o.2.session)) =
        (Document.ofText source).process Session.knowsFunction Session.carryOut l.session := by
    refine Document.process_map Logged.session ?_ ?_ l _
    · exact fun _ => rfl
    · exact fun _ _ => rfl
  rw [run, untilObstacle_map, mapped]
  rfl

/-- The session behind logged outcomes is the one behind the outcomes. -/
theorem after_session (outcomes : List (Except Obstacle Outcome × Logged)) :
    (l.after outcomes).session =
      l.session.after (outcomes.map fun o => (o.1, o.2.session)) := by
  rw [after, Session.after, List.getLast?_map]
  cases outcomes.getLast? <;> rfl

/-- A log changes nothing about the outcomes. -/
theorem runAll_session (sources : List String) (l : Logged) :
    (runAll sources l).map (fun o => (o.1, o.2.session)) = l.session.runAll sources := by
  induction sources generalizing l with
  | nil => rfl
  | cons source sources ih =>
    rw [runAll, List.map_append, run_session, ih, after_session, run_session]
    rfl

/-- Whether the partial applications that were met are a chain up to the counter, and nothing that
is bound mentions other fresh names than those that were made. -/
structure IsFresh (l : Logged) : Prop where
  counted : l.session.IsCounted
  chained : Evaluation.Chained 0 l.applications l.session.counter

/-- Whether, after a statement, fresh names are in order, and those that occur in what became of it
were made by then. -/
def LeavesFresh (o : Except Obstacle Outcome × Logged) : Prop :=
  o.2.IsFresh ∧ ∀ outcome, o.1 = .ok outcome →
    outcome.AllVariables (IsOlder o.2.session.counter)

/-- The log of the initial session is empty. -/
theorem isFresh_initial : initial.IsFresh := ⟨isCounted_initial, .nil⟩

/-- A statement of a text leaves all names of the log fresh. -/
theorem IsFresh.leavesFresh_carryOut {statement : Statement} (h : l.IsFresh)
    (read : ∀ e, statement = .ok e → e.IsBefore 0) : LeavesFresh (carryOut statement l) := by
  obtain ⟨counted, chained, became⟩ := h.counted.carryOut read
  exact ⟨⟨counted, h.chained.append chained⟩, became⟩

variable {S : Token → Prop} (named : ∀ t, S t → t.kind = .identifier → IsName t.text)

include named

/-- So does a document. -/
theorem IsFresh.leavesFresh_process {l : Logged} {d : Document} (h : l.IsFresh) (hd : d.IsIn S) :
    ∀ o ∈ d.process knowsFunction carryOut l, LeavesFresh o := by
  refine hd.forall_process (isMade_isBefore named) (fun statement l read _ fresh => ?_) h
  have leaves : LeavesFresh (carryOut statement l) := fresh.leavesFresh_carryOut read
  exact ⟨leaves, leaves.1⟩

/-- So does a text. -/
theorem IsFresh.leavesFresh_run {source : String} (h : l.IsFresh)
    (all : ∀ t ∈ (tokenize source).tokens, S t) : ∀ o ∈ run source l, LeavesFresh o :=
  fun o ho => h.leavesFresh_process named (Document.isIn_ofText all) o
    ((untilObstacle_sublist _).mem ho)

/-- So do several texts. -/
theorem IsFresh.leavesFresh_runAll {sources : List String} (h : l.IsFresh)
    (all : ∀ text ∈ sources, ∀ t ∈ (tokenize text).tokens, S t) :
    ∀ o ∈ runAll sources l, LeavesFresh o := by
  induction sources generalizing l with
  | nil => exact fun _ h => (List.not_mem_nil h).elim
  | cons source sources ih =>
    obtain ⟨own, others⟩ := List.forall_mem_cons.1 all
    have first := h.leavesFresh_run named own
    have next : (l.after (run source l)).IsFresh := by
      rw [after]
      cases last : (run source l).getLast? with
      | none => exact h
      | some o => exact (first o (List.mem_of_getLast? last)).1
    exact List.forall_mem_append.2 ⟨first, ih next others⟩

omit named

/-- However many texts are run in a session, its fresh names count up to its counter without a gap,
so that no partial application is missing among those noted. They are pairwise distinct, and none of
them is an identifier of the texts. Every fresh name in what is bound or has become of a statement
has a number below the counter then. Of the closures that partial applications have built by then,
none has a parameter that occurs in one of the supplied arguments, and no two parameters of one
match if no two of its function did. -/
theorem runAll_fresh (sources : List String) :
    (runAll sources initial).map (fun o => (o.1, o.2.session)) =
        Session.initial.runAll sources ∧
      ∀ o ∈ runAll sources initial,
        o.2.freshNames.map variableName? =
            (List.range o.2.session.counter).map (fun i => some ("anon" ++ i.repr)) ∧
          o.2.freshNames.Pairwise (fun x y => x.variableName? ≠ y.variableName?) ∧
          (∀ x ∈ o.2.freshNames, ∀ t, IsTokenOf sources t → t.kind = .identifier →
            x.variableName? ≠ some t.text) ∧
          (o.2.session.types.AllBindings fun x c =>
            x.AllVariables (IsOlder o.2.session.counter) ∧
              c.AllVariables (IsOlder o.2.session.counter)) ∧
          (o.2.session.environment.AllBindings fun x v =>
            x.AllVariables (IsOlder o.2.session.counter) ∧
              v.AllVariables (IsOlder o.2.session.counter)) ∧
          (∀ outcome, o.1 = .ok outcome →
            outcome.AllVariables (IsOlder o.2.session.counter)) ∧
          ∀ a ∈ o.2.applications, ∀ g, a.closure? = some g →
            (∀ q ∈ g.parameters, ∀ v ∈ a.arguments, q.occursIn v = .ok false) ∧
              (a.function.parameters.Pairwise Differ → g.parameters.Pairwise Differ) := by
  refine ⟨runAll_session sources initial, fun o ho => ?_⟩
  obtain ⟨⟨counted, chained⟩, became⟩ :=
    isFresh_initial.leavesFresh_runAll (fun _ => isName_of_isTokenOf)
      (fun text ht t mem => ⟨text, ht, mem⟩) o ho
  have counts : Evaluation.Counts 0 o.2.freshNames o.2.session.counter := chained.counts
  refine ⟨?_, counts.pairwise, fun x hx t ht identifier same => ?_, ?_, counted.values, became,
    fun a ha g built => ?_⟩
  · rw [counts.variableNames, Nat.sub_zero, List.range_eq_range']
  · obtain ⟨i, u, rfl, -, -⟩ := counts.of_mem hx
    have plain := isName_of_isTokenOf ht identifier
    exact Evaluation.ne_anon_of_isUsed (.inl plain) (Nat.zero_le i) (Option.some.inj same).symm
  · have old : ∀ x, IsOlder 0 x → IsOlder o.2.session.counter x :=
      fun _ old => old.mono (Nat.zero_le _)
    exact counted.types.mono fun x c h => ⟨h.1.mono old, h.2.mono old⟩
  · have known := chained.isKnown a ha
    exact ⟨fun q hq v hv => known.occursIn_eq_false built hq hv, known.pairwise_differ built⟩

end Logged

end Session

end TexAlgebra
