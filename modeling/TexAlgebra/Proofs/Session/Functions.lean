import TexAlgebra.Proofs.Environment.Kept
import TexAlgebra.Proofs.Grammar.Functions
import TexAlgebra.Proofs.Session.Scopes
/-!
# Functions that a statement binds

An evaluation that succeeds has bound every function that it visited under its name
(`Evaluation.registers_evaluate`), and between statements no scope is open. So after a statement of
a session that succeeded, the names of its functions are bound in the global scope
(`Session.Executed.keeps`), where they stay.
-/

namespace TexAlgebra

variable {α β : Type}

namespace Environment

variable {env env' env'' : Environment α} {xs ys : List Expr}

/-- Whether an environment comes about from another one when variables are bound in it, the
variables `xs` among them. -/
def ExtendsWith (xs : List Expr) (env env' : Environment α) : Prop :=
  ∃ bindings : Scope α, xs ⊆ bindings.map Prod.fst ∧ env.setAll bindings = .ok env'

/-- An environment that binds some variables more keeps all that were bound. -/
theorem Extends.extendsWith (h : env.Extends xs env') : env.ExtendsWith [] env' := by
  obtain ⟨bindings, -, made⟩ := h
  exact ⟨bindings, List.nil_subset _, made⟩

/-- What is bound in two steps is bound in the end. -/
theorem ExtendsWith.append (h : env.ExtendsWith xs env') (h' : env'.ExtendsWith ys env'') :
    env.ExtendsWith (xs ++ ys) env'' := by
  obtain ⟨bindings, sub, made⟩ := h
  obtain ⟨later, sub', made'⟩ := h'
  refine ⟨bindings ++ later, ?_, ?_⟩
  · rw [List.map_append]
    exact List.append_subset.2 ⟨List.subset_append_of_subset_left _ sub,
      List.subset_append_of_subset_right _ sub'⟩
  · rw [setAll_append, made]
    exact made'

/-- What has bound some variables has bound fewer. -/
theorem ExtendsWith.mono (h : env.ExtendsWith xs env') (sub : ys ⊆ xs) :
    env.ExtendsWith ys env' := by
  obtain ⟨bindings, sub', made⟩ := h
  exact ⟨bindings, fun _ mem => sub' (sub mem), made⟩

/-- A binding that succeeds binds its variable. -/
theorem extendsWith_set {x : Expr} {a : α} (h : env.set x a = .ok env') :
    env.ExtendsWith [x] env' := by
  refine ⟨[(x, a)], fun _ => id, ?_⟩
  rw [setAll, h]
  rfl

/-- What is bound in the global scope is found there. -/
theorem ExtendsWith.keeps (h : env.ExtendsWith xs env') (rest : env.depth = 0) {x : Expr}
    (mem : x ∈ xs) : env'.Keeps x := by
  obtain ⟨bindings, sub, made⟩ := h
  exact keeps_setAll rest (.inr (sub mem)) made

end Environment

namespace Evaluation

open Expr (functionNames functionNamesOfAll)

/-- Whether the variables `xs` have been bound when a computation succeeds, and nothing has happened
to the environment then but that variables were bound. -/
def Registers (xs : List Expr) (x : Eval α) : Prop :=
  ∀ s, Ends x s (fun _ t => s.environment.ExtendsWith xs t.environment) fun _ _ => True

variable {xs ys : List Expr} {x : Eval α} {f : α → Eval β}

/-- A computation that binds nothing registers nothing. -/
theorem registers_of_binds (h : Binds Evaluator.environment [] x) : Registers [] x :=
  fun s => (h s).mono (fun _ _ extended => extended.extendsWith) fun _ _ _ => trivial

theorem registers_pure {a : α} : Registers [] (pure a : Eval α) :=
  registers_of_binds binds_pure

/-- A failure registers anything, for it never succeeds. -/
theorem registers_throw {failure : Failure} : Registers xs (throw failure : Eval α) :=
  fun _ => ends_throw trivial

/-- A binding registers its variable. -/
theorem registers_bind (y value : Expr) : Registers [y] (bind y value) :=
  fun _ => ends_update (fun _ changed => Environment.extendsWith_set changed) fun _ => trivial

/-- Where there is room the steps inside register what they do, and otherwise nothing succeeds. -/
theorem registers_nested {room : Room} {failure : Failure} {step : Room → Eval α}
    (h : ∀ room, Registers xs (step room)) : Registers xs (room.nested (throw failure) step) :=
  fun s => ends_nested trivial fun room => h room s

/-- What registers some variables registers fewer. -/
theorem Registers.mono (h : Registers xs x) (sub : ys ⊆ xs) : Registers ys x :=
  fun s => (h s).mono (fun _ _ extended => extended.mono sub) fun _ _ _ => trivial

/-- A sequence registers what both of its steps register. -/
theorem Registers.bind (h : Registers xs x) (next : ∀ a, Registers ys (f a)) :
    Registers (xs ++ ys) (x >>= f) :=
  fun s => (h s).bind fun a t extended =>
    (next a t).mono (fun _ _ later => extended.append later) fun _ _ _ => trivial

/-- What comes last need not bind anything. -/
theorem Registers.before (h : Registers xs x) (next : ∀ a, Registers [] (f a)) :
    Registers xs (x >>= f) := by
  have both := h.bind next
  rwa [List.append_nil] at both

/-- A binding binds its target, whether the value is a function or not. -/
theorem registers_define (room : Room) (target value : Expr) (token : Option Token) :
    Registers [target] (define room target value token) := by
  unfold define
  split
  · exact (registers_bind _ _).before fun _ => registers_pure
  · exact (registers_bind _ _).before fun _ => registers_of_binds <|
      (binds_requireText _ _ _).after fun _ => (binds_requireText _ _ _).after fun _ => binds_pure

variable {body : Room → Expr → Eval Expr}

mutual

/-- Evaluation registers the functions that are defined outside of bodies. -/
theorem registers_evaluateWith
    (called : ∀ room e, Binds Evaluator.environment e.definitions (body room e)) (room : Room)
    (e : Expr) : Registers (functionNames false e) (evaluateWith body room e) := by
  cases e with
  | number =>
    rw [evaluateWith]
    exact registers_nested fun _ => registers_pure
  | var =>
    rw [evaluateWith]
    exact registers_nested fun _ =>
      registers_of_binds ((binds_lookup _).after fun _ => binds_pure)
  | unary op operand token =>
    rw [evaluateWith, functionNames]
    exact registers_nested fun room => (registers_evaluateWith called room operand).before fun v =>
      registers_of_binds (binds_signed op v token)
  | binary op lhs rhs token =>
    rw [evaluateWith, functionNames]
    exact registers_nested fun room => (registers_evaluateWith called room lhs).bind fun v =>
      (registers_evaluateWith called room rhs).before fun w =>
        registers_of_binds (binds_operation op v w token)
  | group items token =>
    rw [evaluateWith, functionNames]
    exact registers_nested fun room =>
      (registers_evaluateAllWith called room items).before fun _ => registers_pure
  | command name arguments token =>
    rw [evaluateWith, functionNames]
    exact registers_nested fun room =>
      (registers_evaluateAllWith called room arguments).before fun _ => registers_pure
  | block name arguments statements token =>
    rw [evaluateWith, functionNames]
    exact registers_nested fun room =>
      (registers_evaluateAllWith called room statements).before fun _ => registers_pure
  | prototype =>
    rw [evaluateWith]
    exact registers_nested fun _ => registers_throw
  | function form name parameters head inner closed token =>
    rw [evaluateWith, functionNames]
    exact registers_nested fun room => (registers_bind name _).before fun _ =>
      registers_of_binds ((binds_requireText room _ _).after fun _ => binds_pure)
  | call callee arguments token =>
    rw [evaluateWith, functionNames]
    exact registers_nested fun room =>
      (registers_evaluateAllWith called room arguments).before fun vs =>
        registers_of_binds (binds_apply called room callee vs token)
  | binding target value token =>
    -- the target of a binding counts only if the value is a function for sure
    have sub : functionNames false (.binding target value token) ⊆
        functionNames false value ++ [target] := by
      rw [functionNames, if_neg Bool.false_ne_true, List.nil_append]
      split
      · exact List.Subset.refl _
      · rw [List.append_nil]
        exact List.subset_append_left _ _
    rw [evaluateWith]
    exact (registers_nested fun room => (registers_evaluateWith called room value).bind fun v =>
      registers_define room target v token).mono sub

/-- The expressions of a list register their functions, one after the other. -/
theorem registers_evaluateAllWith
    (called : ∀ room e, Binds Evaluator.environment e.definitions (body room e)) (room : Room)
    (es : List Expr) : Registers (functionNamesOfAll false es) (evaluateAllWith body room es) := by
  cases es with
  | nil =>
    rw [evaluateAllWith]
    exact registers_pure
  | cons e es =>
    rw [evaluateAllWith, functionNamesOfAll]
    exact (registers_evaluateWith called room e).bind fun v =>
      (registers_evaluateAllWith called room es).before fun vs => registers_pure

end

/-- A statement that has a value has bound the functions that were visited on the way. -/
theorem registers_evaluate (e : Expr) : Registers (functionNames false e) (evaluate e) :=
  (registers_evaluateWith (binds_evaluateWithin (maxLevels - 1)) (.levels maxLevels) e).before
    fun _ => registers_of_binds <|
      (binds_requireText _ _ _).after fun _ => (binds_requireText _ _ _).after fun _ => binds_pure

end Evaluation

namespace Session

variable {s : Session} {l : List (Except Obstacle Outcome × Session)} {x : Expr}

/-! ## Outcomes -/

/-- The names of the functions that the statement of an outcome defines. -/
def definedBy (o : Except Obstacle Outcome × Session) : List Expr :=
  match o.1 with
  | .ok ⟨some e, _⟩ => e.functionNames true
  | _ => []

/-- The names of the functions that were visited by the evaluation which led to an outcome, if it
succeeded. -/
def boundBy (o : Except Obstacle Outcome × Session) : List Expr :=
  match o.1 with
  | .ok ⟨some e, .ok _⟩ => e.functionNames false
  | _ => []

/-- The names of the functions that the statements of some outcomes define. -/
def defined (l : List (Except Obstacle Outcome × Session)) : List Expr := l.flatMap definedBy

/-- The names of the functions that the statements of some outcomes have bound. -/
def bound (l : List (Except Obstacle Outcome × Session)) : List Expr := l.flatMap boundBy

/-! ## Names that are bound -/

/-- A statement that succeeds binds the functions that are visited. -/
theorem keeps_carryOut {statement : Statement} (rest : s.IsAtRest)
    (mem : x ∈ boundBy (s.carryOut statement)) : (s.carryOut statement).2.environment.Keeps x := by
  cases statement with
  | error fault => cases mem
  | ok e =>
    have made := executed e s
    revert made mem
    show x ∈ boundBy (s.execute e) → Executed e s (s.execute e) →
      (s.execute e).2.environment.Keeps x
    generalize s.execute e = r
    intro mem made
    have unvalued {failure : Failure} {s' : Session}
        (mem : x ∈ boundBy (Session.fail e failure s')) : False := by
      rw [boundBy] at mem
      split at mem
      · next valued =>
        obtain ⟨fault, ⟨⟩⟩ := outcome_of_fail valued
      · cases mem
    cases made with
    | refused => exact (unvalued mem).elim
    | failed => exact (unvalued mem).elim
    | succeeded checked evaluated =>
      exact ((Evaluation.registers_evaluate e s.evaluator).of_ok evaluated).keeps rest.values mem

/-- What is bound stays bound. -/
theorem Carried.keeps (h : Carried s l) (rest : s.IsAtRest) (kept : s.environment.Keeps x) :
    (s.after l).environment.Keeps x := by
  induction l generalizing s with
  | nil => exact kept
  | cons o l ih =>
    obtain ⟨⟨statement, rfl⟩, others⟩ := h
    have extended := rest.extends_carryOut statement
    rw [after_cons]
    exact ih others (extended.isAtRest rest) (kept.extends extended.values)

/-- The names of functions that statements have bound are bound after them. -/
theorem Carried.keeps_of_bound (h : Carried s l) (rest : s.IsAtRest) (mem : x ∈ bound l) :
    (s.after l).environment.Keeps x := by
  induction l generalizing s with
  | nil => cases mem
  | cons o l ih =>
    obtain ⟨⟨statement, rfl⟩, others⟩ := h
    have rest' := rest.carryOut statement
    rw [after_cons]
    rw [bound, List.flatMap_cons, List.mem_append] at mem
    obtain now | later := mem
    · exact others.keeps rest' (keeps_carryOut rest now)
    · exact ih others rest' later

end Session

end TexAlgebra
