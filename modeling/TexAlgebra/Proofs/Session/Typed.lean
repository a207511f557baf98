import TexAlgebra.Proofs.Session.Saturated
/-!
# Classifications and values side by side

Checking and evaluation have an environment each. As long as both come from one environment of
classified values, an evaluation that follows an accepted classification step by step has no fault
(`Sound`). Here this is shown of the steps, except for calls.
-/

namespace TexAlgebra

/-! ## Classified values -/

/-- Whether a classification is right about a value: if that is a function, it is classified as one
with the same parameters, none of them supplied yet, and the same body. -/
def Classification.Describes (c : Classification) (v : Expr) : Prop :=
  ∀ g, v.function? = some g →
    ∃ f, c = .function f [] ∧ f.parameters = g.parameters ∧ f.body = g.body

/-- A value with its classification. -/
structure Typed where
  type : Classification
  value : Expr
  describes : type.Describes value

/-- Whether a classification is right about a value and keeps to a bound. -/
structure Classification.Fits (A : Arities) (m : Nat) (c : Classification) (v : Expr) : Prop where
  plain : Typing.IsPlain A m c
  describes : c.Describes v

variable {A : Arities} {m m' : Nat}

namespace Classification

variable {c : Classification} {v : Expr}

/-- Every classification that is no function describes the values that are none. -/
theorem describes_of_function? (h : v.function? = none) : c.Describes v := by
  intro g eq
  rw [h] at eq
  cases eq

/-- What is described as no function is no function. -/
theorem Describes.function?_eq_none (h : c.Describes v) (no_function : c.isFunction = false) :
    v.function? = none := by
  cases function : v.function? with
  | none => rfl
  | some g =>
    obtain ⟨f, rfl, -⟩ := h g function
    cases no_function

/-- A value is plain if its classification is. -/
theorem Describes.plain_value (h : c.Describes v) (plain : Typing.IsPlain A m c) :
    Evaluation.IsPlain A m v := by
  intro g eq
  obtain ⟨f, rfl, parameters, body⟩ := h g eq
  obtain ⟨-, few, open_to, saturated⟩ := plain
  exact ⟨parameters ▸ few, parameters ▸ open_to, body ▸ saturated⟩

/-- A plain classification fits every value that is no function. -/
theorem Fits.of_function? (plain : Typing.IsPlain A m c) (h : v.function? = none) :
    c.Fits A m v :=
  ⟨plain, describes_of_function? h⟩

/-- A value that fits within a bound fits within a higher one. -/
theorem Fits.mono (h : c.Fits A m v) (le : m ≤ m') : c.Fits A m' v :=
  ⟨h.plain.mono le, h.describes⟩

end Classification

namespace Environment

/-- The classifications of the values that are bound. -/
abbrev types (joint : Environment Typed) : Environment Classification := joint.mapped Typed.type

/-- The values without their classifications. -/
abbrev values (joint : Environment Typed) : Environment Expr := joint.mapped Typed.value

/-- Whether all variables keep to the bounds for them. -/
def IsBounded (A : Arities) (joint : Environment Typed) : Prop :=
  joint.AllBindings fun x a => Typing.IsBound A x a.type

variable {joint : Environment Typed}

/-- In bounded bindings the classifications are plain. -/
theorem IsBounded.types (h : joint.IsBounded A) : joint.types.AllBindings (Typing.IsBound A) :=
  AllBindings.mapped _ h fun _ _ plain => plain

/-- Bindings with plain classifications are bounded. -/
theorem isBounded_of_types (h : joint.types.AllBindings (Typing.IsBound A)) :
    joint.IsBounded A := by
  intro s hs b hb
  have mapped := h (s.mapped Typed.type) (by
    rw [scopes_mapped]
    exact List.mem_map_of_mem hs)
  exact mapped (b.1, b.2.type) (List.mem_map_of_mem hb)

/-- In bounded bindings the values are plain. -/
theorem IsBounded.values (h : joint.IsBounded A) :
    joint.values.AllBindings (Evaluation.IsBound A) :=
  AllBindings.mapped _ h fun _ a plain => a.describes.plain_value plain

/-- What is found for a variable keeps to the bound for it. -/
theorem IsBounded.of_lookup (h : joint.IsBounded A) {x : Expr} {a : Typed}
    (found : joint.lookup x = .ok (some a)) : Typing.IsPlain A (A.of x) a.type := by
  obtain ⟨y, name, plain⟩ := AllBindings.of_lookup h found
  exact A.of_eq name ▸ plain

/-- Where nothing is bound, all bindings are bounded. -/
theorem isBounded_empty : (empty : Environment Typed).IsBounded A := by
  intro s hs b hb
  obtain rfl := List.mem_singleton.1 hs
  cases hb

end Environment

/-! ## Computations side by side -/

variable {α β α' β' : Type}

/-- Whether a failure is none of a statement but an obstacle. -/
def Failure.IsObstacle (failure : Failure) : Prop := ∃ o, failure = .obstacle o

theorem Failure.isObstacle (o : Obstacle) : Failure.IsObstacle (.obstacle o) := ⟨o, rfl⟩

/-- Whether an evaluation has no fault where a classification succeeds, the two results are related,
and what is bound in the end fits together if it did in the beginning. -/
def Sound (A : Arities) (x : Typing.Check α) (y : Evaluation.Eval β) (R : α → β → Prop) : Prop :=
  ∀ (joint : Environment Typed) (s : Evaluator) (a : α) (types : Environment Classification),
    joint.IsBounded A → s.environment = joint.values → x joint.types = (.ok a, types) →
      Ends y s
        (fun b t => R a b ∧ ∃ joint' : Environment Typed,
          joint'.IsBounded A ∧ types = joint'.types ∧ t.environment = joint'.values)
        fun failure _ => failure.IsObstacle

namespace Sound

variable {x : Typing.Check α} {y : Evaluation.Eval β} {R : α → β → Prop} {R' : α' → β' → Prop}

/-- Nothing is asked of an evaluation whose classification fails. -/
theorem of_throw {failure : Failure} : Sound A (throw failure : Typing.Check α) y R := by
  intro joint s a types bounded same h
  cases h

/-- Two related results are sound without a step. -/
theorem of_pure {a : α} {b : β} (h : R a b) : Sound A (pure a) (pure b) R := by
  intro joint s a' types bounded same eq
  cases eq
  exact ends_pure ⟨h, joint, bounded, rfl, same⟩

/-- What is done one level further down may be done there in different rooms. -/
theorem nested {room room' : Room} {o : Obstacle} {failure : Failure}
    {step : Room → Typing.Check α} {step' : Room → Evaluation.Eval β}
    (h : ∀ room room', Sound A (step room) (step' room') R) :
    Sound A (room.nested (throw failure) step) (room'.nested (throw (.obstacle o)) step') R := by
  intro joint s a types bounded same checked
  obtain ⟨room, checked⟩ := ok_of_nested checked
  exact ends_nested (Failure.isObstacle o) fun room' =>
    h room room' joint s a types bounded same checked

/-- What follows a sound step only has to be sound for related results. -/
theorem bind {f : α → Typing.Check α'} {g : β → Evaluation.Eval β'} (h : Sound A x y R)
    (next : ∀ a b, R a b → Sound A (f a) (g b) R') : Sound A (x >>= f) (y >>= g) R' := by
  intro joint s a types bounded same checked
  obtain ⟨a₁, types₁, first, second⟩ := ok_of_bind_state checked
  refine (h joint s a₁ types₁ bounded same first).bind ?_
  rintro b t ⟨related, joint', bounded', rfl, same'⟩
  exact next a₁ b related joint' t a types bounded' same' second

/-- Results that are related are related more loosely. -/
theorem mono {Q : α → β → Prop} (h : Sound A x y R) (imp : ∀ a b, R a b → Q a b) :
    Sound A x y Q :=
  fun joint s a types bounded same checked =>
    (h joint s a types bounded same checked).mono
      (fun b _ ⟨related, later⟩ => ⟨imp a b related, later⟩) fun _ _ h => h

/-- A classification that binds nothing, and an evaluation that binds nothing and has no fault. -/
theorem of_keeps {P : α → Prop} (kept : Keeps id (Typing.IsBound A) x P)
    (ends : ∀ a s, P a → Ends y s (fun b t => R a b ∧ t.environment = s.environment)
      fun failure _ => failure.IsObstacle) : Sound A x y R := by
  intro joint s a types bounded same checked
  obtain ⟨rfl, property⟩ := (kept joint.types bounded.types).of_ok checked
  refine (ends a s property).mono ?_ fun _ _ h => h
  rintro b t ⟨related, unchanged⟩
  exact ⟨related, joint, bounded, rfl, unchanged.trans same⟩

/-- To write an expression out may meet obstacles, and those are no faults. -/
theorem requireText {room : Room} {style : Style} {e : Expr} (h : Sound A x y R) :
    Sound A x (do Evaluation.requireText room style e; y) R := by
  intro joint s a types bounded same checked
  have written : Ends (Evaluation.requireText room style e) s (fun _ t => t = s)
      fun failure _ => failure.IsObstacle :=
    Evaluation.ends_requireText rfl Failure.isObstacle
  refine written.bind ?_
  rintro _ t rfl
  exact h joint t a types bounded same checked

end Sound

open Classification (Fits)

/-! ## Values that are no functions -/

/-- Whether an evaluation has no fault, binds nothing, and has no function as its result. -/
def Computes (y : Evaluation.Eval Expr) : Prop :=
  ∀ s, Ends y s (fun v t => v.function? = none ∧ t.environment = s.environment)
    fun failure _ => failure.IsObstacle

variable {x : Typing.Check Classification} {c d : Classification} {v w : Expr}

theorem computes_pure (h : v.function? = none) : Computes (pure v) := fun _ => ends_pure ⟨h, rfl⟩

/-- What computes no function is sound wherever its classification is plain. -/
theorem Computes.sound {y : Evaluation.Eval Expr} (h : Computes y)
    (kept : Typing.KeepsPlain A m x) : Sound A x y (Fits A m) := by
  refine Sound.of_keeps kept fun c s plain => (h s).mono ?_ fun _ _ obstacle => obstacle
  rintro v t ⟨no_function, unchanged⟩
  exact ⟨.of_function? plain no_function, unchanged⟩

/-- What does not look at the state meets obstacles but no faults. -/
theorem computes_attempt {r : Except Obstacle α} {y : α → Evaluation.Eval Expr}
    (h : ∀ a, Computes (y a)) : Computes (do y (← Evaluation.attempt r)) := by
  intro s
  have done : Ends (Evaluation.attempt r) s (fun _ t => t = s)
      fun failure _ => failure.IsObstacle :=
    Evaluation.ends_attempt (fun _ _ => rfl) Failure.isObstacle
  refine done.bind ?_
  rintro a t rfl
  exact h a t

/-- A sign in front of what is no function computes. -/
theorem computes_signed (op : Operator) (token : Option Token) (h : v.function? = none) :
    Computes (Evaluation.signed op v token) := by
  cases v with
  | number text t => exact computes_attempt fun _ => computes_pure rfl
  | function => cases h
  | _ => exact computes_pure rfl

/-- An operation on what is no function computes. -/
theorem computes_operation (op : Operator) (token : Option Token) (h : v.function? = none)
    (h' : w.function? = none) : Computes (Evaluation.operation op v w token) := by
  have no_function : ¬(v.isFunction || w.isFunction) = true := by
    rw [Expr.isFunction, Expr.isFunction, h, h']
    exact Bool.false_ne_true
  unfold Evaluation.operation
  rw [if_neg no_function]
  split
  · exact computes_pure rfl
  · refine computes_attempt fun result => ?_
    cases result with
    | some text => exact computes_pure rfl
    | none => exact computes_pure rfl
  · exact computes_pure rfl

/-! ## Operators -/

/-- A sign is sound: the checker refuses functions, and so does the evaluation. -/
theorem sound_signed (node operand : Expr) (op : Operator) (token : Option Token)
    (h : c.Describes v) :
    Sound A (Typing.signed node operand c) (Evaluation.signed op v token) (Fits A m) := by
  cases no_function : c.isFunction with
  | true =>
    cases c with
    | function => exact .of_throw
    | _ => cases no_function
  | false =>
    exact (computes_signed op token (h.function?_eq_none no_function)).sound
      (Typing.keeps_signed node operand c)

/-- An operand that is accepted is no function. -/
theorem sound_requireOperand {y : Evaluation.Eval Expr} (operand : Expr) (token : Option Token)
    (h : c.isFunction = false → Sound A x y (Fits A m)) :
    Sound A (do Typing.requireOperand operand c token; x) y (Fits A m) := by
  unfold Typing.requireOperand
  cases no_function : c.isFunction with
  | true =>
    intro joint s a types bounded same checked
    cases checked
  | false => exact h no_function

/-- An operation is sound: the checker refuses functions on both sides. -/
theorem sound_operation (node lhs rhs : Expr) (op : Operator) (token : Option Token)
    (h : c.Describes v) (h' : d.Describes w) :
    Sound A
      (do
        Typing.requireOperand lhs c token
        Typing.requireOperand rhs d token
        return .number node)
      (Evaluation.operation op v w token) (Fits A m) :=
  sound_requireOperand lhs token fun left => sound_requireOperand rhs token fun right =>
    (computes_operation op token (h.function?_eq_none left) (h'.function?_eq_none right)).sound
      (keeps_pure trivial)

/-! ## Bindings -/

/-- The checker finds the classification of what is bound. -/
theorem ok_of_lookup_types {joint : Environment Typed} {x : Expr} {c : Option Classification}
    {types : Environment Classification} (h : Typing.lookup x joint.types = (.ok c, types)) :
    types = joint.types ∧ ∃ found, joint.lookup x = .ok found ∧ c = found.map Typed.type := by
  change Typing.attempt (joint.types.lookup x) joint.types = _ at h
  rw [Environment.lookup_mapped] at h
  cases looked : joint.lookup x with
  | error o =>
    rw [looked] at h
    cases h
  | ok found =>
    rw [looked] at h
    cases h
    exact ⟨rfl, found, rfl, rfl⟩

/-- The evaluation finds the value of what is bound. -/
theorem ends_lookup_values {joint : Environment Typed} {x : Expr} {found : Option Typed}
    {s : Evaluator} (same : s.environment = joint.values) (looked : joint.lookup x = .ok found) :
    Ends (Evaluation.lookup x) s (fun v t => v = found.map Typed.value ∧ t = s)
      fun failure _ => failure.IsObstacle := by
  refine Evaluation.ends_lookup (fun v value => ⟨?_, rfl⟩) Failure.isObstacle
  rw [same, Environment.lookup_mapped, looked] at value
  cases value
  rfl

/-- A name is found with its classification and with its value, or is unknown to both. -/
theorem sound_lookup (x : Expr) :
    Sound A (Typing.lookup x) (Evaluation.lookup x) fun c v =>
      ∃ found : Option Typed, c = found.map Typed.type ∧ v = found.map Typed.value ∧
        ∀ a ∈ found, Typing.IsPlain A (A.of x) a.type := by
  intro joint s c types bounded same checked
  obtain ⟨rfl, found, looked, rfl⟩ := ok_of_lookup_types checked
  refine (ends_lookup_values same looked).mono ?_ fun _ _ h => h
  rintro v t ⟨rfl, rfl⟩
  refine ⟨⟨found, rfl, rfl, ?_⟩, joint, bounded, rfl, same⟩
  rintro a rfl
  exact bounded.of_lookup looked

/-- To bind a classification and a value that fit together is sound. -/
theorem sound_bind (x : Expr) (a : Typed) (bound : Typing.IsBound A x a.type) :
    Sound A (Typing.bind x a.type) (Evaluation.bind x a.value) fun _ _ => True := by
  intro joint s _ types bounded same checked
  change (do set (← Typing.attempt (joint.types.set x a.type)) : Typing.Check Unit) joint.types = _
    at checked
  rw [Environment.set_mapped] at checked
  cases changed : joint.set x a with
  | error o =>
    rw [changed] at checked
    cases checked
  | ok joint' =>
    rw [changed] at checked
    cases checked
    refine Evaluation.ends_update (fun env made => ?_) Failure.isObstacle
    rw [same, Environment.set_mapped, changed] at made
    cases made
    exact ⟨trivial, joint', Environment.AllBindings.set bounded bound changed, rfl, rfl⟩

/-- A definition is sound if its value fits the classification. -/
theorem sound_define (room : Room) (target : Expr) (token : Option Token)
    (h : c.Fits A (A.of target) v) :
    Sound A
      (do
        Typing.bind target c
        return c)
      (Evaluation.define room target v token) (Fits A (A.of target)) := by
  unfold Evaluation.define
  cases function : v.function? with
  | none =>
    exact (sound_bind target ⟨c, v, h.describes⟩ h.plain).bind fun _ _ _ =>
      Sound.requireText <| Sound.requireText <| .of_pure (.of_function? h.plain rfl)
  | some g =>
    have renamed : c.Describes (g.renamed target).toExpr := by
      intro g' eq
      cases eq
      exact h.describes g function
    exact (sound_bind target ⟨c, _, renamed⟩ h.plain).bind fun _ _ _ =>
      .of_pure ⟨h.plain, renamed⟩

/-! ## Lists -/

/-- Whether classifications and values are those of a list of classified values that keep to a
bound. -/
def FitEach (A : Arities) (m : Nat) (cs : List Classification) (vs : List Expr) : Prop :=
  ∃ ts : List Typed, cs = ts.map Typed.type ∧ vs = ts.map Typed.value ∧
    ∀ a ∈ ts, Typing.IsPlain A m a.type

theorem fitEach_nil : FitEach A m [] [] := ⟨[], rfl, rfl, by simp⟩

/-- One more classification fits one more value. -/
theorem FitEach.cons {cs : List Classification} {vs : List Expr} (h : Fits A m c v)
    (rest : FitEach A m cs vs) : FitEach A m (c :: cs) (v :: vs) := by
  obtain ⟨ts, rfl, rfl, plain⟩ := rest
  exact ⟨⟨c, v, h.describes⟩ :: ts, rfl, rfl, List.forall_mem_cons.2 ⟨h.plain, plain⟩⟩

/-- Classifications that fit some values are plain. -/
theorem FitEach.plain {cs : List Classification} {vs : List Expr} (h : FitEach A m cs vs) :
    ∀ c ∈ cs, Typing.IsPlain A m c := by
  obtain ⟨ts, rfl, -, plain⟩ := h
  intro c mem
  obtain ⟨a, mem', rfl⟩ := List.mem_map.1 mem
  exact plain a mem'

/-- What is put around several values is no function. -/
theorem sound_lastOf {cs : List Classification} {vs : List Expr} (token : Option Token)
    (h : FitEach A m cs vs) (no_function : w.function? = none) :
    Sound A (Typing.lastOf token cs) (pure w) (Fits A m) :=
  (computes_pure no_function).sound (Typing.keeps_lastOf token h.plain)

end TexAlgebra
