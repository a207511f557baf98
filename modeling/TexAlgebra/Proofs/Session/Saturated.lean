import TexAlgebra.Proofs.Environment.Mapped
import TexAlgebra.Proofs.Evaluation.Results
import TexAlgebra.Proofs.Typing.Results
/-!
# Saturated expressions

An expression is saturated if no call in it can have fewer arguments than the function that is
called has parameters. To tell this from the expression alone, there must be a bound on the number
of parameters of whatever function a name can stand for (`Arities`). A saturated expression without
definitions binds nothing that stays, whether it is classified or evaluated, and functions that come
of it keep to the bounds (`Typing.keeps_classifyWithin`, `Evaluation.keeps_evaluateWithin`).
-/

namespace TexAlgebra

/-! ## Bounds -/

/-- How many parameters a function has at most: one that a variable of some name is bound to, one
that is an argument of a call, one that is the result of a call, and any other. -/
structure Arities where
  named : String → Nat
  argument : Nat
  result : Nat
  other : Nat

namespace Arities

/-- The bound for a function that `x` is bound to. -/
def of (A : Arities) (x : Expr) : Nat := (x.variableName?.map A.named).getD 0

/-- Variables of one name have one bound. -/
theorem of_eq (A : Arities) {x y : Expr} (h : y.variableName? = x.variableName?) :
    A.of y = A.of x := by
  rw [of, of, h]

end Arities

namespace Expr

/-- The expressions whose values have at most `m` parameters if they are functions, and in which
every call is a call of a variable with enough arguments. There may be definitions in them if the
flag says so, but never in the body of a function or in an argument. -/
inductive IsSaturated (A : Arities) : Bool → Nat → Expr → Prop
  | number {definitions : Bool} {m : Nat} {text : String} {token : Option Token} :
    IsSaturated A definitions m (.number text token)
  | var {definitions : Bool} {m : Nat} {name : String} {subscripts : List Expr}
      {token : Option Token} (few : A.named name ≤ m) :
    IsSaturated A definitions m (.var name subscripts token)
  | unary {definitions : Bool} {m : Nat} {op : Operator} {operand : Expr} {token : Option Token}
      (inner : IsSaturated A definitions A.other operand) :
    IsSaturated A definitions m (.unary op operand token)
  | binary {definitions : Bool} {m : Nat} {op : Operator} {lhs rhs : Expr} {token : Option Token}
      (left : IsSaturated A definitions A.other lhs)
      (right : IsSaturated A definitions A.other rhs) :
    IsSaturated A definitions m (.binary op lhs rhs token)
  | group {definitions : Bool} {m : Nat} {items : List Expr} {token : Option Token}
      (all : ∀ e ∈ items, IsSaturated A definitions m e) :
    IsSaturated A definitions m (.group items token)
  | command {definitions : Bool} {m : Nat} {name : String} {arguments : List Expr}
      {token : Option Token} (all : ∀ e ∈ arguments, IsSaturated A definitions m e) :
    IsSaturated A definitions m (.command name arguments token)
  | block {definitions : Bool} {m : Nat} {name : String} {arguments : List String}
      {statements : List Expr} {token : Option Token}
      (all : ∀ e ∈ statements, IsSaturated A definitions m e) :
    IsSaturated A definitions m (.block name arguments statements token)
  | call {definitions : Bool} {m : Nat} {name : String} {subscripts : List Expr}
      {t : Option Token} {arguments : List Expr} {token : Option Token} (few : A.result ≤ m)
      (enough : A.named name ≤ arguments.length)
      (all : ∀ e ∈ arguments, IsSaturated A false A.argument e) :
    IsSaturated A definitions m (.call (.var name subscripts t) arguments token)
  | function {form : FunctionForm} {m : Nat} {name : Expr} {parameters : List Expr}
      {head : Option Token} {body : Expr} {closed : List (Expr × Expr)} {token : Option Token}
      (few : parameters.length ≤ m) (bounded : parameters.length ≤ A.of name)
      (open_to : ∀ p ∈ parameters, A.argument ≤ A.of p)
      (plain : IsSaturated A false A.result body) :
    IsSaturated A true m (.function form name parameters head body closed token)
  | binding {m : Nat} {target value : Expr} {token : Option Token} (few : A.of target ≤ m)
      (inner : IsSaturated A true (A.of target) value) :
    IsSaturated A true m (.binding target value token)

mutual

/-- The test for `IsSaturated`. -/
def isSaturated (A : Arities) (definitions : Bool) (m : Nat) : Expr → Bool
  | number _ _ => true
  | var name _ _ => decide (A.named name ≤ m)
  | unary _ operand _ => isSaturated A definitions A.other operand
  | binary _ lhs rhs _ =>
    isSaturated A definitions A.other lhs && isSaturated A definitions A.other rhs
  | group items _ => areSaturated A definitions m items
  | command _ arguments _ => areSaturated A definitions m arguments
  | block _ _ statements _ => areSaturated A definitions m statements
  | prototype _ _ _ => false
  | function _ name parameters _ body _ _ =>
    definitions && decide (parameters.length ≤ m ∧ parameters.length ≤ A.of name ∧
      ∀ p ∈ parameters, A.argument ≤ A.of p) && isSaturated A false A.result body
  | call (var name _ _) arguments _ =>
    decide (A.result ≤ m ∧ A.named name ≤ arguments.length) &&
      areSaturated A false A.argument arguments
  | call _ _ _ => false
  | binding target value _ =>
    definitions && decide (A.of target ≤ m) && isSaturated A true (A.of target) value

/-- The test for several expressions. -/
def areSaturated (A : Arities) (definitions : Bool) (m : Nat) : List Expr → Bool
  | [] => true
  | e :: es => isSaturated A definitions m e && areSaturated A definitions m es

end

mutual

/-- It can be computed whether an expression is saturated. -/
theorem isSaturated_iff {A : Arities} {definitions : Bool} {m : Nat} (e : Expr) :
    isSaturated A definitions m e = true ↔ IsSaturated A definitions m e := by
  cases e with
  | number => exact iff_of_true rfl .number
  | var name subscripts token =>
    rw [isSaturated, decide_eq_true_iff]
    refine ⟨.var, fun h => ?_⟩
    cases h with
    | var few => exact few
  | unary op operand token =>
    rw [isSaturated, isSaturated_iff operand]
    refine ⟨.unary, fun h => ?_⟩
    cases h with
    | unary inner => exact inner
  | binary op lhs rhs token =>
    rw [isSaturated, Bool.and_eq_true, isSaturated_iff lhs, isSaturated_iff rhs]
    refine ⟨fun h => .binary h.1 h.2, fun h => ?_⟩
    cases h with
    | binary left right => exact ⟨left, right⟩
  | group items token =>
    rw [isSaturated, areSaturated_iff items]
    refine ⟨.group, fun h => ?_⟩
    cases h with
    | group all => exact all
  | command name arguments token =>
    rw [isSaturated, areSaturated_iff arguments]
    refine ⟨.command, fun h => ?_⟩
    cases h with
    | command all => exact all
  | block name arguments statements token =>
    rw [isSaturated, areSaturated_iff statements]
    refine ⟨.block, fun h => ?_⟩
    cases h with
    | block all => exact all
  | prototype => exact iff_of_false (fun h => by cases h) fun h => by cases h
  | function form name parameters head body closed token =>
    rw [isSaturated, Bool.and_eq_true, Bool.and_eq_true, decide_eq_true_iff, isSaturated_iff body]
    refine ⟨?_, fun h => ?_⟩
    · rintro ⟨⟨rfl, few, bounded, open_to⟩, plain⟩
      exact .function few bounded open_to plain
    · cases h with
      | function few bounded open_to plain => exact ⟨⟨rfl, few, bounded, open_to⟩, plain⟩
  | call callee arguments token =>
    cases callee with
    | var name subscripts u =>
      rw [isSaturated, Bool.and_eq_true, decide_eq_true_iff, areSaturated_iff arguments]
      refine ⟨fun h => .call h.1.1 h.1.2 h.2, fun h => ?_⟩
      cases h with
      | call few enough all => exact ⟨⟨few, enough⟩, all⟩
    | _ => exact iff_of_false (fun h => by cases h) fun h => by cases h
  | binding target value token =>
    rw [isSaturated, Bool.and_eq_true, Bool.and_eq_true, decide_eq_true_iff, isSaturated_iff value]
    refine ⟨?_, fun h => ?_⟩
    · rintro ⟨⟨rfl, few⟩, inner⟩
      exact .binding few inner
    · cases h with
      | binding few inner => exact ⟨⟨rfl, few⟩, inner⟩

/-- It can be computed whether all of some expressions are saturated. -/
theorem areSaturated_iff {A : Arities} {definitions : Bool} {m : Nat} (es : List Expr) :
    areSaturated A definitions m es = true ↔ ∀ e ∈ es, IsSaturated A definitions m e := by
  cases es with
  | nil => exact iff_of_true rfl fun e he => by cases he
  | cons e es =>
    rw [areSaturated, Bool.and_eq_true, isSaturated_iff e, areSaturated_iff es,
      List.forall_mem_cons]

end

instance (A : Arities) (definitions : Bool) (m : Nat) (e : Expr) :
    Decidable (IsSaturated A definitions m e) :=
  decidable_of_iff _ (isSaturated_iff e)

end Expr

/-- Whether a function has at most `m` parameters, all of which can stand for any argument, and a
saturated body without definitions. -/
structure Function.IsSaturated (A : Arities) (m : Nat) (f : Function) : Prop where
  few : f.parameters.length ≤ m
  open_to : ∀ p ∈ f.parameters, A.argument ≤ A.of p
  body : Expr.IsSaturated A false A.result f.body

instance (A : Arities) (m : Nat) (f : Function) : Decidable (f.IsSaturated A m) :=
  decidable_of_iff
    (f.parameters.length ≤ m ∧ (∀ p ∈ f.parameters, A.argument ≤ A.of p) ∧
      Expr.IsSaturated A false A.result f.body)
    ⟨fun h => ⟨h.1, h.2.1, h.2.2⟩, fun h => ⟨h.few, h.open_to, h.body⟩⟩

/-- A function that keeps to a bound keeps to a higher one. -/
theorem Function.IsSaturated.mono {A : Arities} {f : Function} {m m' : Nat} (h : f.IsSaturated A m)
    (le : m ≤ m') : f.IsSaturated A m' :=
  { h with few := Nat.le_trans h.few le }

/-! ## Computations that keep an environment -/

section

variable {σ α β γ : Type} {view : σ → Environment γ} {Q : Expr → γ → Prop} {P : α → Prop}
  {R : β → Prop} {x : ExceptT Failure (StateM σ) α}

/-- Whether a computation that has a result leaves an environment as it is, and its result has a
property, given that all bindings have one. -/
def Keeps (view : σ → Environment γ) (Q : Expr → γ → Prop) (x : ExceptT Failure (StateM σ) α)
    (P : α → Prop) : Prop :=
  ∀ s, (view s).AllBindings Q →
    Ends x s (fun a t => view t = view s ∧ P a) fun _ _ => True

theorem keeps_pure {a : α} (h : P a) : Keeps view Q (pure a) P := fun _ _ => ends_pure ⟨rfl, h⟩

/-- A failure has no result to be kept. -/
theorem keeps_throw {failure : Failure} : Keeps view Q (throw failure) P :=
  fun _ _ => ends_throw trivial

/-- A step with less room keeps what it keeps with any room. -/
theorem keeps_nested {room : Room} {failure : Failure}
    {step : Room → ExceptT Failure (StateM σ) α} (h : ∀ room, Keeps view Q (step room) P) :
    Keeps view Q (room.nested (throw failure) step) P :=
  fun s all => ends_nested trivial fun room => h room s all

/-- What follows a step that keeps the environment only has to keep it for results with the
property. -/
theorem Keeps.bind {f : α → ExceptT Failure (StateM σ) β} (h : Keeps view Q x P)
    (next : ∀ a, P a → Keeps view Q (f a) R) : Keeps view Q (x >>= f) R := by
  intro s all
  refine (h s all).bind fun a t ⟨kept, property⟩ => ?_
  exact (next a property t (kept ▸ all)).mono
    (fun b u ⟨kept', property'⟩ => ⟨kept'.trans kept, property'⟩) fun _ _ h => h

/-- A property that follows from another one is kept with it. -/
theorem Keeps.mono {P' : α → Prop} (h : Keeps view Q x P) (imp : ∀ a, P a → P' a) :
    Keeps view Q x P' :=
  fun s all => (h s all).mono (fun a _ ⟨kept, property⟩ => ⟨kept, imp a property⟩) fun _ _ h => h

end

variable {A : Arities} {m m' : Nat}

/-! ## Classification -/

namespace Typing

variable {α : Type} {P : α → Prop}

/-- Whether a classification, if it is a function, is a saturated one with at most `m` parameters
that was not called before. -/
def IsPlain (A : Arities) (m : Nat) : Classification → Prop
  | .function f bound => bound = [] ∧ f.IsSaturated A m
  | _ => True

instance (A : Arities) (m : Nat) : DecidablePred (IsPlain A m)
  | .function f bound =>
    decidable_of_iff (bound.isEmpty = true ∧ f.IsSaturated A m) (by rw [List.isEmpty_iff]; rfl)
  | .number _ | .symbolic _ | .unknown _ => inferInstanceAs (Decidable True)

/-- A plain classification that keeps to a bound keeps to a higher one. -/
theorem IsPlain.mono {c : Classification} (h : IsPlain A m c) (le : m ≤ m') : IsPlain A m' c := by
  cases c with
  | function => exact ⟨h.1, h.2.mono le⟩
  | _ => trivial

/-- Whether a variable is bound to a plain classification that keeps to the bound for it. -/
def IsBound (A : Arities) (x : Expr) (c : Classification) : Prop := IsPlain A (A.of x) c

/-- Whether a classification leaves all bindings as they are, and its result is plain if they are.
-/
abbrev KeepsPlain (A : Arities) (m : Nat) (x : Check Classification) : Prop :=
  Keeps id (IsBound A) x (IsPlain A m)

/-- What does not look at the environment keeps it. -/
theorem keeps_attempt (x : Except Obstacle α) (h : ∀ a, x = .ok a → P a) :
    Keeps id (IsBound A) (attempt x) P :=
  fun _ _ => ends_attempt (fun a eq => ⟨rfl, h a eq⟩) fun _ => trivial

theorem keeps_refuse {cause : TypeCause} {token : Option Token} :
    Keeps id (IsBound A) (refuse cause token : Check α) P :=
  keeps_throw

/-- In a bounded environment a name is found with a plain classification, of the bound for the name.
-/
theorem isPlain_of_lookup {types : Environment Classification} {x : Expr} {c : Classification}
    (bound : types.AllBindings (IsBound A)) (found : types.lookup x = .ok (some c)) :
    IsPlain A (A.of x) c := by
  obtain ⟨y, name, plain⟩ := bound.of_lookup found
  exact A.of_eq name ▸ plain

/-- A lookup gives a plain classification. -/
theorem keeps_lookup (x : Expr) :
    Keeps id (IsBound A) (lookup x) fun found => ∀ c ∈ found, IsPlain A (A.of x) c := by
  intro types bound
  refine ends_lookup (fun found eq => ⟨rfl, ?_⟩) fun _ => trivial
  rintro c rfl
  exact isPlain_of_lookup bound eq

/-- A scope of plain classifications is left again, and what is below it is kept. -/
theorem keeps_inScope {room : Room} {bindings : List (Expr × Classification)} {action : Check α}
    (all : ∀ b ∈ bindings, IsBound A b.1 b.2) (h : Keeps id (IsBound A) action P) :
    Keeps id (IsBound A) (inScope room bindings action) P := by
  intro types bound
  refine ends_inScope (fun env made => ?_) (fun _ => trivial) trivial
  have left := Environment.leave_of_setAll_push made
  refine (h env (bound.push.setAll all made)).mono ?_ fun _ _ _ => ⟨trivial, fun _ _ => trivial⟩
  rintro a t ⟨rfl, property⟩
  exact ⟨left, property⟩

/-- To ask for an operand keeps the environment. -/
theorem keeps_requireOperand (operand : Expr) (c : Classification) (token : Option Token) :
    Keeps id (IsBound A) (requireOperand operand c token) fun _ => True := by
  unfold requireOperand
  split
  · exact keeps_refuse
  · exact keeps_pure trivial

/-- A sign makes a number or a term of its operand, and both are plain. -/
theorem keeps_signed (node operand : Expr) (c : Classification) :
    KeepsPlain A m (signed node operand c) := by
  cases c with
  | number | symbolic => exact keeps_pure trivial
  | _ => exact keeps_refuse

/-- The last of some plain classifications is plain. -/
theorem keeps_lastOf (token : Option Token) {cs : List Classification}
    (all : ∀ c ∈ cs, IsPlain A m c) : KeepsPlain A m (lastOf token cs) := by
  unfold lastOf
  split
  · next c last => exact keeps_pure (all c (List.mem_of_getLast? last))
  · exact keeps_refuse

/-- A call that is not refused supplies all parameters. -/
theorem keeps_callable {given : Nat} (token : Option Token) {c : Classification}
    (enough : m ≤ given) (h : IsPlain A m c) :
    Keeps id (IsBound A) (callable given token c) fun called =>
      called.2 = [] ∧ called.1.IsSaturated A m ∧ given = called.1.arity := by
  obtain ⟨f, bound, rfl, fits, eq⟩ | ⟨f, bound, -, -, eq⟩ | eq := callable_cases given token c
  · obtain ⟨none, saturated⟩ := h
    have full : given = f.arity := Nat.le_antisymm fits (Nat.le_trans saturated.few enough)
    exact eq ▸ keeps_pure ⟨none, saturated, full⟩
  · exact eq ▸ keeps_refuse
  · exact eq ▸ keeps_refuse

/-- Arguments can be bound to the parameters of a saturated function. -/
theorem isBound_of_mem_zip {f : Function} (saturated : f.IsSaturated A m)
    {cs : List Classification} (plain : ∀ c ∈ cs, IsPlain A A.argument c)
    {b : Expr × Classification} (mem : b ∈ f.parameters.zip cs) : IsBound A b.1 b.2 :=
  (plain _ (List.of_mem_zip mem).2).mono (saturated.open_to _ (List.of_mem_zip mem).1)

variable {body : Room → Expr → Check Classification}

mutual

/-- A saturated expression has a plain classification, with the bodies of functions given. -/
theorem keeps_classifyWith
    (called : ∀ room e, Expr.IsSaturated A false A.result e → KeepsPlain A A.result (body room e))
    {m : Nat} (room : Room) (e : Expr) (h : Expr.IsSaturated A false m e) :
    KeepsPlain A m (classifyWith body room e) := by
  cases e with
  | number text token =>
    rw [classifyWith]
    exact keeps_nested fun room => keeps_pure trivial
  | var name subscripts token =>
    cases h with
    | var few =>
      rw [classifyWith]
      refine keeps_nested fun room => (keeps_lookup _).bind fun found plain => keeps_pure ?_
      cases found with
      | none => trivial
      | some c => exact (plain c rfl).mono few
  | unary op operand token =>
    cases h with
    | unary inner =>
      rw [classifyWith]
      exact keeps_nested fun room =>
        (keeps_classifyWith called room operand inner).bind fun c _ => keeps_signed _ operand c
  | binary op lhs rhs token =>
    cases h with
    | binary left right =>
      rw [classifyWith]
      exact keeps_nested fun room => (keeps_classifyWith called room lhs left).bind fun c _ =>
        (keeps_classifyWith called room rhs right).bind fun d _ =>
          (keeps_requireOperand lhs c token).bind fun _ _ =>
            (keeps_requireOperand rhs d token).bind fun _ _ => keeps_pure trivial
  | group items token =>
    cases h with
    | group all =>
      rw [classifyWith]
      exact keeps_nested fun room =>
        (keeps_classifyAllWith called room items all).bind fun cs plain => keeps_lastOf token plain
  | command name arguments token =>
    cases h with
    | command all =>
      rw [classifyWith]
      exact keeps_nested fun room =>
        (keeps_classifyAllWith called room arguments all).bind fun cs plain =>
          keeps_lastOf token plain
  | block name arguments statements token =>
    cases h with
    | block all =>
      rw [classifyWith]
      exact keeps_nested fun room =>
        (keeps_classifyAllWith called room statements all).bind fun cs plain =>
          keeps_lastOf token plain
  | call callee arguments token =>
    cases h with
    | @call _ _ name _ _ _ _ few enough all =>
      rw [classifyWith]
      refine keeps_nested fun room =>
        (keeps_classifyWith called room _ (.var (Nat.le_refl (A.named name)))).bind fun c plain =>
          (keeps_callable token enough plain).bind fun ⟨f, bound⟩ spec =>
            (keeps_classifyAllWith called room arguments all).bind fun cs supplied => ?_
      -- no call is partial, so it gets the classification of the body
      obtain ⟨rfl, saturated, full⟩ := spec
      dsimp only
      rw [if_pos full]
      have result : KeepsPlain A A.result
          (inScope room (f.parameters.zip cs) (body room f.body)) :=
        keeps_inScope (fun b hb => isBound_of_mem_zip saturated supplied hb)
          (called room f.body saturated.body)
      exact result.mono fun c plain => plain.mono few
  | _ => cases h

/-- So have the expressions of a list, one after the other. -/
theorem keeps_classifyAllWith
    (called : ∀ room e, Expr.IsSaturated A false A.result e → KeepsPlain A A.result (body room e))
    {m : Nat} (room : Room) (es : List Expr) (h : ∀ e ∈ es, Expr.IsSaturated A false m e) :
    Keeps id (IsBound A) (classifyAllWith body room es) fun cs => ∀ c ∈ cs, IsPlain A m c := by
  cases es with
  | nil =>
    rw [classifyAllWith]
    exact keeps_pure (by simp)
  | cons e es =>
    rw [classifyAllWith]
    refine (keeps_classifyWith called room e (h e List.mem_cons_self)).bind fun c hc =>
      (keeps_classifyAllWith called room es fun e he => h e (List.mem_cons_of_mem _ he)).bind
        fun cs hcs => keeps_pure ?_
    exact List.forall_mem_cons.2 ⟨hc, hcs⟩

end

/-- Classifying a saturated expression without definitions binds nothing that stays. -/
theorem keeps_classifyWithin (depth : Nat) (room : Room) {m : Nat} (e : Expr)
    (h : Expr.IsSaturated A false m e) : KeepsPlain A m (classifyWithin depth room e) := by
  induction depth generalizing room m e with
  | zero => exact keeps_throw
  | succ depth ih => exact keeps_classifyWith (fun room e h => ih room e h) room e h

end Typing

/-! ## Evaluation -/

namespace Evaluation

variable {α : Type} {P : α → Prop}

/-- Whether a value, if it is a function, is a saturated one with at most `m` parameters. -/
def IsPlain (A : Arities) (m : Nat) (v : Expr) : Prop :=
  ∀ f, v.function? = some f → f.IsSaturated A m

/-- What is no function is plain. -/
theorem isPlain_of_function? {v : Expr} (h : v.function? = none) : IsPlain A m v := by
  intro f eq
  rw [h] at eq
  cases eq

theorem IsPlain.mono {v : Expr} (h : IsPlain A m v) (le : m ≤ m') : IsPlain A m' v :=
  fun f eq => (h f eq).mono le

/-- Whether a variable is bound to a plain value that keeps to the bound for it. -/
def IsBound (A : Arities) (x v : Expr) : Prop := IsPlain A (A.of x) v

/-- Whether an evaluation leaves all bindings as they are, and its result is plain if they are. -/
abbrev KeepsPlain (A : Arities) (m : Nat) (x : Eval Expr) : Prop :=
  Keeps Evaluator.environment (IsBound A) x (IsPlain A m)

/-- A value that is no function is plain. -/
theorem keeps_other {v : Expr} (h : v.function? = none) : KeepsPlain A m (pure v) :=
  keeps_pure (isPlain_of_function? h)

theorem keeps_attempt (x : Except Obstacle α) (h : ∀ a, x = .ok a → P a) :
    Keeps Evaluator.environment (IsBound A) (attempt x) P :=
  fun _ _ => ends_attempt (fun a eq => ⟨rfl, h a eq⟩) fun _ => trivial

theorem keeps_refuse {cause : EvaluationCause} {token : Option Token} :
    Keeps Evaluator.environment (IsBound A) (refuse cause token : Eval α) P :=
  keeps_throw

theorem isPlain_of_lookup {env : Environment Expr} {x v : Expr}
    (bound : env.AllBindings (IsBound A)) (found : env.lookup x = .ok (some v)) :
    IsPlain A (A.of x) v := by
  obtain ⟨y, name, plain⟩ := bound.of_lookup found
  exact A.of_eq name ▸ plain

theorem keeps_lookup (x : Expr) :
    Keeps Evaluator.environment (IsBound A) (lookup x) fun found =>
      ∀ v ∈ found, IsPlain A (A.of x) v := by
  intro s bound
  refine ends_lookup (fun found eq => ⟨rfl, ?_⟩) fun _ => trivial
  rintro v rfl
  exact isPlain_of_lookup bound eq

theorem keeps_inScope {room : Room} {bindings : List (Expr × Expr)} {action : Eval α}
    (all : ∀ b ∈ bindings, IsBound A b.1 b.2)
    (h : Keeps Evaluator.environment (IsBound A) action P) :
    Keeps Evaluator.environment (IsBound A) (inScope room bindings action) P := by
  intro s bound
  refine ends_inScope (fun env made => ?_) (fun _ => trivial) trivial
  have left := Environment.leave_of_setAll_push made
  refine (h _ (bound.push.setAll all made)).mono ?_ fun _ _ _ => ⟨trivial, fun _ _ => trivial⟩
  rintro a t ⟨kept, property⟩
  exact ⟨(congrArg Environment.leave kept).trans left, property⟩

theorem keeps_signed (op : Operator) (operand : Expr) (token : Option Token) :
    KeepsPlain A m (signed op operand token) := by
  cases operand with
  | number text t =>
    exact (keeps_attempt (P := fun _ => True) _ fun _ _ => trivial).bind fun _ _ =>
      keeps_other rfl
  | function => exact keeps_refuse
  | _ => exact keeps_other rfl

/-- An operation gives no function. -/
theorem keeps_operation (op : Operator) (lhs rhs : Expr) (token : Option Token) :
    KeepsPlain A m (operation op lhs rhs token) := by
  unfold operation
  split
  · exact keeps_refuse
  split
  · exact keeps_other rfl
  · refine (keeps_attempt (P := fun _ => True) _ fun _ _ => trivial).bind fun result _ => ?_
    cases result with
    | some text => exact keeps_other rfl
    | none => exact keeps_other rfl
  · exact keeps_other rfl

variable {body : Room → Expr → Eval Expr}

/-- A call of a saturated function with enough arguments leaves nothing over to be curried. -/
theorem keeps_apply
    (called : ∀ room e, Expr.IsSaturated A false A.result e → KeepsPlain A A.result (body room e))
    (room : Room) (callee : Expr) {arguments : List Expr} (enough : A.of callee ≤ arguments.length)
    (all : ∀ v ∈ arguments, IsPlain A A.argument v) (token : Option Token) :
    KeepsPlain A A.result (apply body room callee arguments token) := by
  refine (keeps_lookup callee).bind fun found plain => ?_
  cases function : found.bind Expr.function? with
  | none => exact keeps_other rfl
  | some f =>
    obtain ⟨v, rfl, function⟩ := Option.bind_eq_some_iff.1 function
    have saturated := plain v rfl f function
    dsimp only
    split
    · exact keeps_refuse
    · next fits =>
      have full : arguments.length = f.arity :=
        Nat.le_antisymm (Nat.le_of_not_lt fits) (Nat.le_trans saturated.few enough)
      rw [if_pos full]
      refine keeps_inScope (fun b hb => ?_) (called room f.body saturated.body)
      exact (all _ (List.of_mem_zip hb).2).mono (saturated.open_to _ (List.of_mem_zip hb).1)

mutual

/-- A saturated expression has a plain value, with the bodies of functions given. -/
theorem keeps_evaluateWith
    (called : ∀ room e, Expr.IsSaturated A false A.result e → KeepsPlain A A.result (body room e))
    {m : Nat} (room : Room) (e : Expr) (h : Expr.IsSaturated A false m e) :
    KeepsPlain A m (evaluateWith body room e) := by
  cases e with
  | number text token =>
    rw [evaluateWith]
    exact keeps_nested fun room => keeps_other rfl
  | var name subscripts token =>
    cases h with
    | var few =>
      rw [evaluateWith]
      refine keeps_nested fun room => (keeps_lookup _).bind fun found plain => keeps_pure ?_
      cases found with
      | none => exact isPlain_of_function? rfl
      | some v => exact (plain v rfl).mono few
  | unary op operand token =>
    cases h with
    | unary inner =>
      rw [evaluateWith]
      exact keeps_nested fun room =>
        (keeps_evaluateWith called room operand inner).bind fun v _ => keeps_signed op v token
  | binary op lhs rhs token =>
    cases h with
    | binary left right =>
      rw [evaluateWith]
      exact keeps_nested fun room => (keeps_evaluateWith called room lhs left).bind fun v _ =>
        (keeps_evaluateWith called room rhs right).bind fun w _ => keeps_operation op v w token
  | group items token =>
    cases h with
    | group all =>
      rw [evaluateWith]
      exact keeps_nested fun room =>
        (keeps_evaluateAllWith called room items all).bind fun _ _ => keeps_other rfl
  | command name arguments token =>
    cases h with
    | command all =>
      rw [evaluateWith]
      exact keeps_nested fun room =>
        (keeps_evaluateAllWith called room arguments all).bind fun _ _ => keeps_other rfl
  | block name arguments statements token =>
    cases h with
    | block all =>
      rw [evaluateWith]
      exact keeps_nested fun room =>
        (keeps_evaluateAllWith called room statements all).bind fun _ _ => keeps_other rfl
  | call callee arguments token =>
    cases h with
    | @call _ _ name subscripts u _ _ few enough all =>
      rw [evaluateWith]
      refine keeps_nested fun room =>
        (keeps_evaluateAllWith called room arguments all).bind fun vs ⟨length, plain⟩ => ?_
      have enough' : A.of (.var name subscripts u) ≤ vs.length := length ▸ enough
      exact (keeps_apply called room _ enough' plain token).mono fun v plain => plain.mono few
  | _ => cases h

/-- So have the expressions of a list, and there is a value for each of them. -/
theorem keeps_evaluateAllWith
    (called : ∀ room e, Expr.IsSaturated A false A.result e → KeepsPlain A A.result (body room e))
    {m : Nat} (room : Room) (es : List Expr) (h : ∀ e ∈ es, Expr.IsSaturated A false m e) :
    Keeps Evaluator.environment (IsBound A) (evaluateAllWith body room es) fun vs =>
      vs.length = es.length ∧ ∀ v ∈ vs, IsPlain A m v := by
  cases es with
  | nil =>
    rw [evaluateAllWith]
    exact keeps_pure (by simp)
  | cons e es =>
    rw [evaluateAllWith]
    refine (keeps_evaluateWith called room e (h e List.mem_cons_self)).bind fun v hv =>
      (keeps_evaluateAllWith called room es fun e he => h e (List.mem_cons_of_mem _ he)).bind
        fun vs ⟨length, hvs⟩ => keeps_pure ?_
    exact ⟨congrArg Nat.succ length, List.forall_mem_cons.2 ⟨hv, hvs⟩⟩

end

/-- Evaluating a saturated expression without definitions binds nothing that stays. -/
theorem keeps_evaluateWithin (depth : Nat) (room : Room) {m : Nat} (e : Expr)
    (h : Expr.IsSaturated A false m e) : KeepsPlain A m (evaluateWithin depth room e) := by
  induction depth generalizing room m e with
  | zero => exact keeps_throw
  | succ depth ih => exact keeps_evaluateWith (fun room e h => ih room e h) room e h

end Evaluation

end TexAlgebra
