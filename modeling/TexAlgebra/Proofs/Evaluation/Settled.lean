import TexAlgebra.Proofs.Evaluation.Substitution
/-!
# Settled values

What an evaluation leaves behind cannot be computed any further: no sign stands before a number, and
no operation that is defined stands between two numbers. `Evaluation.settles_evaluateWithin` says
this of every evaluation that starts from settled bindings. A settled formula therefore evaluates to
itself wherever none of its names is bound (`Evaluation.agree_settled`), and so does every settled
algebraic expression whose variables are not bound (`Evaluation.evaluateWith_of_unbound`), as long
as there is room for its levels.
-/

namespace TexAlgebra

open Evaluation

/-! ## Settled expressions -/

namespace Expr

/-- The expressions in which nothing is left to compute. -/
inductive IsSettled : Expr → Prop
  | number {text : String} {token : Option Token} : IsSettled (.number text token)
  | var {name : String} {subscripts : List Expr} {token : Option Token} :
    IsSettled (.var name subscripts token)
  | unary {op : Operator} {operand : Expr} {token : Option Token} (inner : IsSettled operand)
      (no_number : operand.isNumber = false) (no_function : operand.isFunction = false) :
    IsSettled (.unary op operand token)
  | binary {op : Operator} {lhs rhs : Expr} {token : Option Token} (left : IsSettled lhs)
      (right : IsSettled rhs) (no_function : (lhs.isFunction || rhs.isFunction) = false)
      (undefined : ∀ a t b u, lhs = .number a t → rhs = .number b u →
        op = .equals ∨ Numeral.combined op a b = .ok none) :
    IsSettled (.binary op lhs rhs token)
  | group {items : List Expr} {token : Option Token} (all : ∀ e ∈ items, IsSettled e) :
    IsSettled (.group items token)
  | command {name : String} {arguments : List Expr} {token : Option Token}
      (all : ∀ e ∈ arguments, IsSettled e) : IsSettled (.command name arguments token)
  | block {name : String} {arguments : List String} {statements : List Expr}
      {token : Option Token} (all : ∀ e ∈ statements, IsSettled e) :
    IsSettled (.block name arguments statements token)
  | function {form : FunctionForm} {name : Expr} {parameters : List Expr} {head : Option Token}
      {body : Expr} {closed : List (Expr × Expr)} {token : Option Token} :
    IsSettled (.function form name parameters head body closed token)
  | call {callee : Expr} {arguments : List Expr} {token : Option Token}
      (all : ∀ e ∈ arguments, IsSettled e) : IsSettled (.call callee arguments token)
  | binding {target value : Expr} {token : Option Token} (bound : IsSettled value) :
    IsSettled (.binding target value token)

end Expr

open TexAlgebra.Expr

/-- Whether all bound values are settled. -/
def Evaluator.IsSettled (s : Evaluator) : Prop := s.environment.AllValues Expr.IsSettled

namespace Evaluation

variable {α β : Type}

/-! ## Evaluation settles -/

/-- Whether a computation keeps bindings settled, also when it fails, and its result has a property.
-/
def Settles (x : Eval α) (P : α → Prop) : Prop :=
  ∀ s : Evaluator, s.IsSettled → (x s).2.IsSettled ∧ ∀ a, (x s).1 = .ok a → P a

variable {P : α → Prop} {Q : β → Prop} {room : Room}

theorem settles_pure {a : α} (h : P a) : Settles (pure a) P := by
  intro s hs
  refine ⟨hs, fun b eq => ?_⟩
  cases eq
  exact h

/-- A failure leaves the values of the environment alone. -/
theorem settles_throw {failure : Failure} : Settles (throw failure : Eval α) P := by
  intro s hs
  exact ⟨hs, fun a eq => by cases eq⟩

/-- What follows a computation only has to settle for results with its property. -/
theorem Settles.bind {x : Eval α} {f : α → Eval β} (h : Settles x P)
    (next : ∀ a, P a → Settles (f a) Q) : Settles (x >>= f) Q := by
  intro s hs
  obtain ⟨settled, property⟩ := h s hs
  cases result : x s with
  | mk r t =>
    rw [result] at settled property
    cases r with
    | error failure =>
      rw [bind_of_error result]
      exact ⟨settled, fun b eq => by cases eq⟩
    | ok a =>
      rw [bind_of_ok result]
      exact next a (property a rfl) t settled

/-- What does not look at the state leaves the environment alone. -/
theorem settles_attempt (x : Except Obstacle α) (h : ∀ a, x = .ok a → P a) :
    Settles (attempt x) P := by
  cases x with
  | error o => exact settles_throw
  | ok a => exact settles_pure (h a rfl)

theorem settles_refuse {cause : EvaluationCause} {token : Option Token} :
    Settles (refuse cause token : Eval α) P :=
  settles_throw

/-- Without room the environment is left alone. -/
theorem settles_nested {step : Room → Eval α} (h : ∀ room, Settles (step room) P) :
    Settles (room.nested (throw (.obstacle .tooDeep)) step) P := by
  obtain rfl | ⟨inner, -, made⟩ := room.nested_cases (α := Eval α)
  · exact settles_throw
  · rw [made]
    exact h inner

/-- To write an expression out leaves the environment alone. -/
theorem settles_requireText (style : Style) (e : Expr) :
    Settles (requireText room style e) fun _ => True :=
  (settles_attempt _ fun _ _ => trivial).bind fun _ (_ : True) => settles_pure trivial

/-- In an environment of settled values a lookup finds a settled one. -/
theorem settles_lookup (x : Expr) :
    Settles (lookup x) fun value => ∀ e ∈ value, e.IsSettled := by
  intro s hs
  refine settles_attempt (P := fun value => ∀ e ∈ value, e.IsSettled) (s.environment.lookup x) ?_ s
    hs
  rintro value found e rfl
  exact hs.of_lookup found

/-- A change of the environment settles if it keeps all values settled. -/
theorem settles_update {f : Environment Expr → Except Obstacle (Environment Expr)}
    (h : ∀ env env', env.AllValues Expr.IsSettled → f env = .ok env' →
      env'.AllValues Expr.IsSettled) : Settles (update f) fun _ => True := by
  intro s hs
  cases changed : f s.environment with
  | error o =>
    rw [update_of_error changed]
    exact ⟨hs, fun _ eq => by cases eq⟩
  | ok env' =>
    rw [update_of_ok changed]
    exact ⟨h _ _ hs changed, fun _ _ => trivial⟩

/-- A settled value can be bound. -/
theorem settles_bind {x value : Expr} (h : value.IsSettled) :
    Settles (bind x value) fun _ => True :=
  settles_update fun _ _ all changed => all.set h changed

/-- A scope that binds settled values keeps all values settled, also where it is left. -/
theorem settles_inScope {bindings : List (Expr × Expr)} {action : Eval α}
    (all : ∀ b ∈ bindings, b.2.IsSettled) (h : Settles action P) :
    Settles (inScope room bindings action) P := by
  intro s hs
  have inner : Settles (do update (·.setAll bindings); action) P :=
    (settles_update fun _ _ kept changed => kept.setAll all changed).bind fun _ _ => h
  obtain ⟨settled, property⟩ := inner { s with environment := s.environment.push } hs.push
  refine ⟨?_, property⟩
  show Evaluator.IsSettled (if _ then _ else _)
  split
  · exact settled
  · exact settled.leave

/-- A sign in front of a settled value gives a settled one: a number, or a sign that stays. -/
theorem settles_signed {op : Operator} {operand : Expr} (token : Option Token)
    (h : operand.IsSettled) : Settles (signed op operand token) Expr.IsSettled := by
  cases operand with
  | number text t =>
    exact (settles_attempt _ fun _ _ => trivial).bind fun _ (_ : True) => settles_pure .number
  | function => exact settles_refuse
  | _ => exact settles_pure (.unary h rfl rfl)

/-- An operation on settled values gives a settled one: a number, or an operation that stays. -/
theorem settles_operation {op : Operator} {lhs rhs : Expr} (token : Option Token)
    (left : lhs.IsSettled) (right : rhs.IsSettled) :
    Settles (operation op lhs rhs token) Expr.IsSettled := by
  unfold operation
  cases functions : lhs.isFunction || rhs.isFunction with
  | true =>
    exact settles_refuse
  | false =>
    rw [if_neg Bool.false_ne_true]
    split
    · exact settles_pure (.binary left right functions fun _ _ _ _ _ _ => .inl rfl)
    · next a t b u other =>
      have kept : Settles (attempt (Numeral.combined op a b)) (Numeral.combined op a b = .ok ·) :=
        settles_attempt _ fun _ h => h
      refine kept.bind fun result computed => ?_
      cases result with
      | some text => exact settles_pure .number
      | none =>
        refine settles_pure (.binary left right functions ?_)
        rintro _ _ _ _ ⟨⟩ ⟨⟩
        exact .inr computed
    · next no_numbers =>
      refine settles_pure (.binary left right functions ?_)
      intro a t b u number number'
      exact (no_numbers a t b u number number').elim

/-- A fresh name binds nothing. -/
theorem settles_freshName (token : Option Token) : Settles (freshName token) fun _ => True := by
  intro s hs
  exact ⟨hs, fun _ _ => trivial⟩

/-- New names for parameters bind nothing. -/
theorem settles_freshParameters (arguments parameters : List Expr) :
    Settles (freshParameters arguments parameters) fun _ => True := by
  induction parameters with
  | nil => exact settles_pure trivial
  | cons p ps ih =>
    refine (settles_attempt (P := fun _ => True) _ fun _ _ => trivial).bind fun taken _ => ?_
    have rest : ∀ name : Option Expr,
        Settles (freshParameters arguments ps >>= fun rest => pure ((p, name) :: rest))
          fun _ => True := fun _ => ih.bind fun _ _ => settles_pure trivial
    cases taken with
    | true =>
      have named : Settles (some <$> freshName p.token) fun _ => True :=
        (settles_freshName p.token).bind fun q _ => settles_pure (a := some q) trivial
      exact named.bind fun name _ => rest name
    | false => exact rest none

/-- A closure is a function, and every function is settled. -/
theorem settles_curry (f : Function) (arguments : List Expr) (token : Option Token) :
    Settles (curry room f arguments token) IsSettled :=
  (settles_freshName token).bind fun _ _ =>
    (settles_freshParameters _ _).bind fun _ _ =>
      (settles_requireText _ _).bind fun _ _ =>
        (settles_requireText _ _).bind fun _ _ => settles_pure .function

variable {body : Room → Expr → Eval Expr}

/-- A call gives a settled value: that of the body, a closure, or the call itself. -/
theorem settles_apply (called : ∀ e, Settles (body room e) IsSettled) (callee : Expr)
    {arguments : List Expr} (all : ∀ e ∈ arguments, e.IsSettled) (token : Option Token) :
    Settles (apply body room callee arguments token) IsSettled := by
  refine (settles_lookup callee).bind fun value _ => ?_
  cases value.bind Expr.function? with
  | none => exact settles_pure (.call all)
  | some f =>
    dsimp only
    split
    · exact settles_refuse
    · split
      · exact settles_inScope (fun b hb => all _ (List.of_mem_zip hb).2) (called f.body)
      · exact settles_curry f arguments token

/-- A definition binds a settled value and gives it, or a binding of it. -/
theorem settles_define (target : Expr) {value : Expr} (h : value.IsSettled)
    (token : Option Token) : Settles (define room target value token) IsSettled := by
  unfold define
  cases value.function? with
  | some f => exact (settles_bind .function).bind fun _ _ => settles_pure .function
  | none =>
    exact (settles_bind h).bind fun _ _ =>
      (settles_requireText _ _).bind fun _ _ =>
        (settles_requireText _ _).bind fun _ _ => settles_pure (.binding h)

mutual

/-- Evaluation gives settled values, with the calls of functions given. -/
theorem settles_evaluateWith (called : ∀ room e, Settles (body room e) IsSettled) (room : Room)
    (e : Expr) :
    Settles (evaluateWith body room e) IsSettled := by
  rw [evaluateWith]
  refine settles_nested fun room => ?_
  cases e with
  | number text token => exact settles_pure .number
  | var name subscripts token =>
    refine (settles_lookup _).bind fun value settled => settles_pure ?_
    cases value with
    | none => exact .var
    | some v => exact settled v rfl
  | unary op operand token =>
    exact (settles_evaluateWith called room operand).bind fun v hv => settles_signed token hv
  | binary op lhs rhs token =>
    exact (settles_evaluateWith called room lhs).bind fun v hv =>
      (settles_evaluateWith called room rhs).bind fun w hw => settles_operation token hv hw
  | group items token =>
    exact (settles_evaluateAllWith called room items).bind fun vs all => settles_pure (.group all)
  | command name arguments token =>
    exact (settles_evaluateAllWith called room arguments).bind fun vs all =>
      settles_pure (.command all)
  | block name arguments statements token =>
    exact (settles_evaluateAllWith called room statements).bind fun vs all =>
      settles_pure (.block all)
  | prototype name parameters token =>
    exact settles_refuse
  | function form name parameters head inner closed token =>
    exact (settles_bind .function).bind fun _ _ =>
      (settles_requireText _ _).bind fun _ _ => settles_pure .function
  | call callee arguments token =>
    exact (settles_evaluateAllWith called room arguments).bind fun vs all =>
      settles_apply (called room) callee all token
  | binding target value token =>
    exact (settles_evaluateWith called room value).bind fun v hv => settles_define target hv token

/-- So it does for the expressions of a list, one after the other. -/
theorem settles_evaluateAllWith (called : ∀ room e, Settles (body room e) IsSettled) (room : Room)
    (es : List Expr) :
    Settles (evaluateAllWith body room es) fun vs => ∀ v ∈ vs, v.IsSettled := by
  cases es with
  | nil =>
    rw [evaluateAllWith]
    exact settles_pure (by simp)
  | cons e es =>
    rw [evaluateAllWith]
    refine (settles_evaluateWith called room e).bind fun v hv =>
      (settles_evaluateAllWith called room es).bind fun vs hvs => settles_pure ?_
    intro w hw
    rcases List.mem_cons.1 hw with rfl | hw
    · exact hv
    · exact hvs w hw

end

/-- From settled bindings an evaluation arrives at settled bindings, whether it fails or not, and
its result is settled. -/
theorem settles_evaluateWithin (depth : Nat) (room : Room) (e : Expr) :
    Settles (evaluateWithin depth room e) IsSettled := by
  induction depth generalizing room e with
  | zero => exact settles_throw
  | succ depth ih => exact settles_evaluateWith ih room e

/-! ## Settled values stay -/

/-- A sign in front of what is neither a number nor a function stays. -/
theorem signed_of_settled {op : Operator} {operand : Expr} {token : Option Token}
    (no_number : operand.isNumber = false) (no_function : operand.isFunction = false) :
    signed op operand token = pure (.unary op operand token) := by
  cases operand with
  | number => cases no_number
  | function => cases no_function
  | _ => rfl

/-- An operation that is settled stays as it is. -/
theorem operation_of_settled {op : Operator} {lhs rhs : Expr} {token : Option Token}
    (h : IsSettled (.binary op lhs rhs token)) (s : Evaluator) :
    operation op lhs rhs token s = (.ok (.binary op lhs rhs token), s) := by
  cases h with
  | binary left right no_function undefined =>
    unfold operation
    rw [no_function, if_neg Bool.false_ne_true]
    split
    · rfl
    · next a t b u other =>
      obtain equals | none := undefined a t b u rfl rfl
      · exact (other equals).elim
      · rw [none]
        rfl
    · rfl

variable {limited : Prop} {s : Evaluator}

/-- A list whose expressions stay as they are stays as it is. -/
theorem agree_evaluateAllWith_settled {es : List Expr}
    (h : ∀ e ∈ es, Agree limited (pure e) s (evaluateWith body room e) s) :
    Agree limited (pure es) s (evaluateAllWith body room es) s := by
  induction es with
  | nil =>
    rw [evaluateAllWith]
    exact agree_pure _
  | cons e es ih =>
    rw [evaluateAllWith]
    exact (h e List.mem_cons_self).bind_pure
      ((ih fun e he => h e (List.mem_cons_of_mem _ he)).bind_pure (agree_pure _))

/-- What is settled evaluates to itself where none of its variables is bound, unless there is too
little room for its levels. -/
theorem agree_of_unbound {v : Expr} (h : v.IsAlgebraic) (settled : v.IsSettled)
    (unbound : ∀ x ∈ v.leaves, x.isVariable = true → s.environment.lookup x = .ok none)
    (few : room.holds v.height = false → limited) :
    Agree limited (pure v) s (evaluateWith body room v) s := by
  -- a part needs no more room than the whole
  have less : ∀ {r : Room} {m n : Nat}, m ≤ n → (r.holds n = false → limited) →
      r.holds m = false → limited := by
    intro r m n le few few'
    refine few (Bool.eq_false_iff.2 fun fits => ?_)
    rw [Room.holds_mono fits le] at few'
    cases few'
  induction h generalizing room with
  | number =>
    rw [evaluateWith]
    exact agree_pure_nested few fun _ _ => agree_pure _
  | @var name subscripts token =>
    have free : lookup (.var name subscripts token) s = (.ok none, s) := by
      show attempt (s.environment.lookup _) s = _
      rw [unbound _ (by simp [leaves]) rfl]
      rfl
    rw [evaluateWith]
    exact agree_pure_nested few fun _ _ => ⟨_, rfl, .inl (bind_of_ok free)⟩
  | unary _ ih =>
    cases settled with
    | unary settled no_number no_function =>
      rw [evaluateWith]
      refine agree_pure_nested few fun inner few => (ih settled unbound few).bind_pure ?_
      rw [signed_of_settled no_number no_function]
      exact agree_pure _
  | binary _ _ ihl ihr =>
    -- settled operands are not combined any further
    have operation := operation_of_settled settled s
    cases settled with
    | binary left right no_function undefined =>
      rw [evaluateWith]
      refine agree_pure_nested few fun inner few => ?_
      refine (ihl left (fun x mem => unbound x (List.mem_append_left _ mem))
        (less (Nat.le_max_left _ _) few)).bind_pure ?_
      refine (ihr right (fun x mem => unbound x (List.mem_append_right _ mem))
        (less (Nat.le_max_right _ _) few)).bind_pure ?_
      exact ⟨_, rfl, .inl operation⟩
  | group _ ih =>
    cases settled with
    | group all =>
      rw [evaluateWith]
      refine agree_pure_nested few fun inner few => ?_
      refine (agree_evaluateAllWith_settled fun e he => ih e he (all e he)
        (fun x mem => unbound x (mem_leavesOfAll.2 ⟨e, he, mem⟩))
        (less (height_le_heightAll he) few)).bind_pure ?_
      exact agree_pure _
  | command _ ih =>
    cases settled with
    | command all =>
      rw [evaluateWith]
      refine agree_pure_nested few fun inner few => ?_
      refine (agree_evaluateAllWith_settled fun e he => ih e he (all e he)
        (fun x mem => unbound x (mem_leavesOfAll.2 ⟨e, he, mem⟩))
        (less (height_le_heightAll he) few)).bind_pure ?_
      exact agree_pure _

/-- What is settled evaluates to itself where none of its variables is bound and there is room for
its levels. -/
theorem evaluateWith_of_unbound {v : Expr} (h : v.IsAlgebraic) (settled : v.IsSettled)
    (unbound : ∀ x ∈ v.leaves, x.isVariable = true → s.environment.lookup x = .ok none)
    (fits : room.holds v.height = true) : evaluateWith body room v s = (.ok v, s) := by
  have few : room.holds v.height = false → False := by simp [fits]
  have agree : Agree False (pure v) s (evaluateWith body room v) s :=
    agree_of_unbound h settled unbound few
  obtain ⟨_, ⟨⟩, evaluated | ⟨none, -⟩⟩ := agree
  · exact evaluated
  · exact none.elim

/-- A settled formula evaluates to itself where none of its names is bound, unless room is limited
and there is too little of it. -/
theorem agree_settled {n : Nat} {v : Expr} (h : IsFormula n v) (settled : v.IsSettled)
    (unbound : ∀ name ∈ v.names, s.environment.named name = none)
    (few : room ≠ .unbounded → limited) :
    Agree limited (pure v) s (evaluateWith body room v) s := by
  refine agree_of_unbound h.isAlgebraic settled (fun x mem isVariable => ?_) fun none => few ?_
  · obtain ⟨text, t, rfl⟩ | ⟨name, t, rfl, -⟩ := h.of_mem_leaves mem
    · cases isVariable
    · rw [Environment.lookup_name, unbound name (mem_names.2 ⟨t, mem⟩)]
  · rintro rfl
    cases none

end Evaluation

end TexAlgebra
