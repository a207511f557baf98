import TexAlgebra.Proofs.Session.Scopes
/-!
# Statements that fail

A statement that fails can have bound something before: the definitions that it got to are not taken
back. A definition binds its variable last, so one that contains no other definitions and fails
binds nothing, unless it fails in evaluation after it was accepted; the checker then keeps its
classification (`Session.unchanged_of_fault`). What is bound is written out after that, which needs
room of its own: where this runs out, the definition fails and has bound its variable.
-/

namespace TexAlgebra

/-! ## Faults after definitions -/

section

variable {σ α β γ : Type} {view : σ → Environment γ} {xs ys : List Expr}
  {x : ExceptT Failure (StateM σ) α} {f : α → ExceptT Failure (StateM σ) β}

/-- Whether a computation does not fail with a fault. It may still meet an obstacle. -/
def IsFaultless (x : ExceptT Failure (StateM σ) α) : Prop :=
  ∀ s, Ends x s (fun _ _ => True) fun failure _ => ∀ fault, failure ≠ .fault fault

theorem isFaultless_pure {a : α} : IsFaultless (pure a : ExceptT Failure (StateM σ) α) :=
  fun _ => ends_pure trivial

/-- A sequence of steps without faults ends without a fault. -/
theorem IsFaultless.bind (h : IsFaultless x) (next : ∀ a, IsFaultless (f a)) :
    IsFaultless (x >>= f) :=
  fun s => (h s).bind fun a t _ => next a t

/-- Whether a computation that fails with a fault has by then bound some of the variables `xs`, in
their order, and done nothing else to an environment. -/
def FailsAfter (view : σ → Environment γ) (xs : List Expr) (x : ExceptT Failure (StateM σ) α) :
    Prop :=
  ∀ s, Ends x s (fun _ _ => True) fun failure t =>
    ∀ fault, failure = .fault fault → (view s).Extends xs (view t)

/-- Without room for a step there is no fault. -/
theorem failsAfter_nested {room : Room} {step : Room → ExceptT Failure (StateM σ) α}
    (h : ∀ room, FailsAfter view xs (step room)) :
    FailsAfter view xs (room.nested (throw (.obstacle .tooDeep)) step) :=
  fun s => ends_nested nofun fun room => h room s

/-- What binds some variables at most has bound some of them when it fails. -/
theorem Binds.failsAfter (h : Binds view xs x) : FailsAfter view xs x :=
  fun s => (h s).mono (fun _ _ _ => trivial) fun _ _ left _ faulty =>
    left.extends (by rw [faulty]; nofun)

/-- A fault behind a step that binds variables comes after those were bound. -/
theorem FailsAfter.after (h : Binds view xs x) (next : ∀ a, FailsAfter view [] (f a)) :
    FailsAfter view xs (x >>= f) := by
  intro s
  have first : Ends x s (fun _ t => (view s).Extends xs (view t)) fun failure t =>
      ∀ fault, failure = .fault fault → (view s).Extends xs (view t) :=
    (h s).mono (fun _ _ extended => extended) fun _ _ left _ faulty =>
      left.extends (by rw [faulty]; nofun)
  refine first.bind fun a t extended => ?_
  refine (next a t).mono (fun _ _ _ => trivial) fun failure u later fault faulty => ?_
  rw [(later fault faulty).eq_of_nil]
  exact extended

/-- What has no fault may come last. -/
theorem FailsAfter.before (h : FailsAfter view xs x) (next : ∀ a, IsFaultless (f a)) :
    FailsAfter view xs (x >>= f) :=
  fun s => (h s).bind fun a t _ =>
    (next a t).mono (fun _ _ _ => trivial) fun _ _ faultless fault faulty =>
      absurd faulty (faultless fault)

end

/-- The variables that are bound when an expression is visited, without the one that its root binds.
-/
def Expr.innerDefinitions : Expr → List Expr
  | function _ _ _ _ _ _ _ => []
  | binding _ value _ => value.definitions
  | e => e.definitions

/-! ## Evaluation -/

namespace Evaluation

/-- An expression that cannot be written out is an obstacle and no fault. -/
theorem isFaultless_requireText (room : Room) (style : Style) (e : Expr) :
    IsFaultless (requireText room style e) :=
  fun _ => ends_requireText trivial fun _ => nofun

/-- A binding meets obstacles but no faults. -/
theorem failsAfter_bind (x value : Expr) : FailsAfter Evaluator.environment [] (bind x value) :=
  fun _ => ends_update (fun _ _ => trivial) fun _ => nofun

/-- A definition whose value is at hand meets obstacles but no faults. -/
theorem failsAfter_define (room : Room) (target value : Expr) (token : Option Token) :
    FailsAfter Evaluator.environment [] (define room target value token) := by
  unfold define
  split
  · exact (failsAfter_bind _ _).before fun _ => isFaultless_pure
  · exact (failsAfter_bind _ _).before fun _ =>
      (isFaultless_requireText _ _ _).bind fun _ =>
        (isFaultless_requireText _ _ _).bind fun _ => isFaultless_pure

/-- Where an evaluation has a fault, the root has not bound its variable. -/
theorem failsAfter_evaluateWithin (depth : Nat) (room : Room) (e : Expr) :
    FailsAfter Evaluator.environment e.innerDefinitions (evaluateWithin depth room e) := by
  have binds := (binds_evaluateWithin depth room e).failsAfter
  cases depth with
  | zero => exact fun _ => ends_throw nofun
  | succ depth =>
    cases e with
    | function form name parameters head body closed token =>
      rw [evaluateWithin, evaluateWith]
      exact failsAfter_nested fun room => (failsAfter_bind name _).before fun _ =>
        (isFaultless_requireText room _ _).bind fun _ => isFaultless_pure
    | binding target value token =>
      rw [evaluateWithin, evaluateWith]
      refine failsAfter_nested fun room => ?_
      have inner := binds_evaluateWith (binds_evaluateWithin depth) room value
      exact FailsAfter.after inner fun v => failsAfter_define room target v token
    | _ => exact binds

/-- A statement that fails with a fault when it is evaluated has bound inner definitions at most. -/
theorem failsAfter_evaluate (e : Expr) :
    FailsAfter Evaluator.environment e.innerDefinitions (evaluate e) :=
  (failsAfter_evaluateWithin maxLevels (.levels maxLevels) e).before fun _ =>
    (isFaultless_requireText _ _ _).bind fun _ =>
      (isFaultless_requireText _ _ _).bind fun _ => isFaultless_pure

end Evaluation

/-! ## Checking -/

namespace Typing

/-- What does not look at the state meets obstacles but no faults. -/
theorem isFaultless_attempt {α : Type} (x : Except Obstacle α) : IsFaultless (attempt x) :=
  fun _ => ends_attempt (fun _ _ => trivial) fun _ => nofun

theorem failsAfter_bind (x : Expr) (c : Classification) : FailsAfter id [] (bind x c) :=
  fun _ => ends_bind (fun _ _ => trivial) fun _ => nofun

/-- Where a classification has a fault, the root has not bound its variable. -/
theorem failsAfter_classifyWithin (depth : Nat) (room : Room) (e : Expr) :
    FailsAfter id e.innerDefinitions (classifyWithin depth room e) := by
  have binds := (binds_classifyWithin depth room e).failsAfter
  cases depth with
  | zero => exact fun _ => ends_throw nofun
  | succ depth =>
    cases e with
    | function form name parameters head body closed token =>
      rw [classifyWithin, classifyWith]
      exact failsAfter_nested fun _ =>
        (failsAfter_bind name _).before fun _ => isFaultless_pure
    | binding target value token =>
      rw [classifyWithin, classifyWith]
      refine failsAfter_nested fun room => ?_
      have inner := binds_classifyWith (binds_classifyWithin depth) room value
      exact FailsAfter.after inner fun c =>
        (failsAfter_bind target c).before fun _ => isFaultless_pure
    | _ => exact binds

/-- A statement that fails with a fault when it is checked has bound inner definitions at most. -/
theorem failsAfter_check (e : Expr) : FailsAfter id e.innerDefinitions (check e) :=
  (failsAfter_classifyWithin maxLevels (.levels maxLevels) e).before fun _ =>
    (isFaultless_attempt _).bind fun _ => isFaultless_pure

end Typing

/-! ## Statements -/

namespace Session

/-- Whether a statement is not accepted by the checker. -/
def Refuses (s : Session) (e : Expr) : Prop :=
  ∃ failure types, Typing.check e s.types = (.error failure, types)

variable {s s' : Session} {e : Expr} {r : Except Obstacle Outcome × Session}
  {parsed : Option Expr} {fault : Fault}

/-- A fault that is reported is that of the computation that failed, if no recursion went too deep;
then nothing is given up. -/
theorem fail_of_fault {failure : Failure}
    (failed : (fail e failure s).1 = .ok ⟨parsed, .error fault⟩) (enough : fault.cause ≠ .tooDeep) :
    failure = .fault fault ∧ (fail e failure s).2 = s := by
  cases failure with
  | fault f =>
    cases failed
    exact ⟨rfl, rfl⟩
  | obstacle o =>
    cases o with
    | tooDeep =>
      cases failed
      exact absurd rfl enough
    | _ => cases failed

/-- A statement that has a fault extends the values at most by its inner definitions, and so it does
with the classifications if the checker refuses it. -/
theorem Executed.extends_of_fault (h : Executed e s r)
    (failed : r.1 = .ok ⟨parsed, .error fault⟩) (enough : fault.cause ≠ .tooDeep) :
    s.environment.Extends e.innerDefinitions r.2.environment ∧
      (s.Refuses e → s.types.Extends e.innerDefinitions r.2.types) := by
  cases h with
  | refused checked =>
    obtain ⟨faulty, unchanged⟩ := fail_of_fault failed enough
    rw [unchanged]
    exact ⟨.refl _ _, fun _ =>
      (Typing.failsAfter_check e s.types).of_error checked fault faulty⟩
  | failed checked evaluated =>
    obtain ⟨faulty, unchanged⟩ := fail_of_fault failed enough
    rw [unchanged]
    refine ⟨(Evaluation.failsAfter_evaluate e s.evaluator).of_error evaluated fault faulty, ?_⟩
    rintro ⟨failure', types', refused⟩
    rw [checked] at refused
    cases refused
  | succeeded => cases failed

/-- After a statement that fails no scope is open, and if it has no definitions then everything that
is bound is as before. If it has none inside of another one and the failure is not that a recursion
went too deep, the values are those from before the statement, and the classifications are if the
checker refuses it. -/
theorem unchanged_of_fault (reached : s.IsReachable)
    (failed : s.execute e = (.ok ⟨some e, .error fault⟩, s')) :
    s'.types.depth = s.types.depth ∧ s'.environment.depth = s.environment.depth ∧
      (e.definitions = [] → s'.types = s.types ∧ s'.environment = s.environment) ∧
      (e.innerDefinitions = [] → fault.cause ≠ .tooDeep →
        s'.environment = s.environment ∧ (s.Refuses e → s'.types = s.types)) := by
  have carried := executed e s
  rw [failed] at carried
  have extended : s.Extends e.definitions s' := carried.extends reached.isAtRest
  refine ⟨extended.types.sameOutside.depth, extended.values.sameOutside.depth, ?_, ?_⟩
  · intro nothing
    rw [nothing] at extended
    exact ⟨extended.types.eq_of_nil, extended.values.eq_of_nil⟩
  · intro nothing enough
    obtain ⟨values, types⟩ := carried.extends_of_fault rfl enough
    rw [nothing] at values types
    exact ⟨values.eq_of_nil, fun refused => (types refused).eq_of_nil⟩

/-- Nothing is known of `z`, so the definition `a = -z` is refused, and `a` stays unbound. -/
theorem unchanged_of_fault_operand : ∃ e fault s',
    initial.execute e = (.ok ⟨some e, .error fault⟩, s') ∧ e.definitions = [.var "a" [] none] ∧
      s'.types = .empty ∧ s'.environment = .empty := by
  let z : Expr := .var "z" [] none
  let e : Expr := .binding (.var "a" [] none) (.unary .minus z none) none
  let fault : Fault := ⟨.typing (.badOperand (.unknown z)), none⟩
  have refused : Typing.check e .empty = (.error (.fault fault), .empty) := rfl
  have failed : initial.execute e = (.ok ⟨some e, .error fault⟩, initial) := rfl
  obtain ⟨-, -, -, unchanged⟩ := unchanged_of_fault .initial failed
  obtain ⟨values, types⟩ := unchanged rfl nofun
  exact ⟨e, fault, initial, failed, rfl, types ⟨_, _, refused⟩, values⟩

/-- Where there is no room to write out the value of a definition, the variable is bound all the
same. -/
example :
    let x : Expr := .var "x" [] none
    let sum : Expr := .binary .plus (.var "z" [] none) (.number "1" none) none
    let s : Evaluator := ⟨⟨[(x, sum)], []⟩, 0⟩
    Evaluation.evaluateWithin 1 (.levels 2) (.binding (.var "y" [] none) x none) s =
      (.error (.obstacle .tooDeep), ⟨⟨[(x, sum), (.var "y" [] none, sum)], []⟩, 0⟩) := by
  cbv

/-- A statement that fails can leave a binding behind: the list of `f = 1` and `-z` is refused
because of `z`, and `f` stays classified as a number. -/
theorem bound_of_failed_list : ∃ e fault s',
    initial.execute e = (.ok ⟨some e, .error fault⟩, s') ∧ s'.types ≠ initial.types := by
  let one : Expr := .number "1" none
  let z : Expr := .var "z" [] none
  let definition : Expr := .binding (.var "f" [] none) one none
  let list : Expr := .block "a" [] [definition, .unary .minus z none] none
  let fault : Fault := ⟨.typing (.badOperand (.unknown z)), none⟩
  let types : Environment Classification := ⟨[(.var "f" [] none, .number one)], []⟩
  let classify := Typing.classifyWith (Typing.classifyWithin 329)
  have defined : classify (.levels 329) definition .empty = (.ok (.number one), types) := rfl
  have unbound : Typing.lookup z types = (.ok none, types) := by
    show Typing.attempt (types.lookup z) types = _
    rw [Environment.lookup_name]
    rfl
  have unknown : classify (.levels 328) z types = (.ok (.unknown z), types) := by
    show Typing.classifyWith _ _ z types = _
    rw [Typing.classifyWith]
    exact bind_of_ok unbound
  have signed : classify (.levels 329) (.unary .minus z none) types =
      (.error (.fault fault), types) := by
    show Typing.classifyWith _ _ _ types = _
    rw [Typing.classifyWith]
    exact bind_of_ok unknown
  have items : Typing.classifyAllWith (Typing.classifyWithin 329) (.levels 329)
      [definition, .unary .minus z none] .empty = (.error (.fault fault), types) := by
    rw [Typing.classifyAllWith, Typing.classifyAllWith]
    exact (bind_of_ok defined).trans (bind_of_error (bind_of_error signed))
  have refused : Typing.check list .empty = (.error (.fault fault), types) :=
    bind_of_error (bind_of_error items)
  have failed : initial.execute list = (.ok ⟨some list, .error fault⟩, ⟨types, .initial⟩) := by
    rw [execute, show (Typing.check list).run initial.types = _ from refused]
    rfl
  refine ⟨list, fault, _, failed, fun same => ?_⟩
  cases congrArg (fun env => env.globals.length) same

end Session

end TexAlgebra
