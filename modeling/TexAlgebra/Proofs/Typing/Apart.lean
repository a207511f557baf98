import TexAlgebra.Proofs.Environment.Apart
import TexAlgebra.Proofs.Session.Definitions
import TexAlgebra.Proofs.Variables
/-!
# Checks that overlook a binding

If a variable `h` occurs nowhere, neither in an expression nor in what is bound, then further
bindings of `h` make no difference to the classification of the expression: it succeeds with the
same result or fails with the same failure, also where functions are called whose bodies bind and
look up variables (`Typing.overlooks_classifyWithin`). If an expression mentions `h` but has no
definitions, then what its classification needs is still free of `h`
(`Typing.staysApart_classifyWith`).
-/

namespace TexAlgebra

/-- Whether a failure that reports too many arguments reports more arguments than parameters. -/
def Failure.IsExact (failure : Failure) : Prop :=
  ∀ given expected token,
    failure = .fault ⟨.typing (.tooManyArguments given expected), token⟩ → expected < given

/-- Whether `h` occurs nowhere in what a classification needs to be used: the parameters and the
body of a function, and what its parameters are bound to. -/
inductive Classification.IsApart (h : Expr) : Classification → Prop
  | number {node : Expr} : IsApart h (.number node)
  | symbolic {node : Expr} : IsApart h (.symbolic node)
  | unknown {node : Expr} : IsApart h (.unknown node)
  | function {f : Function} {bound : List (Expr × Classification)}
      (parameters : ∀ p ∈ f.parameters, p.AllVariables h.IsApart)
      (inner : f.body.AllVariables h.IsApart)
      (supplied : ∀ b ∈ bound, b.1.AllVariables h.IsApart) (values : ∀ b ∈ bound, IsApart h b.2) :
    IsApart h (.function f bound)

/-- Whether `h` occurs neither in a variable that is bound nor in its classification. -/
def Environment.IsApart (h : Expr) (types : Environment Classification) : Prop :=
  types.AllBindings fun x c => x.AllVariables h.IsApart ∧ c.IsApart h

namespace Typing

variable {h : Expr} {α β : Type} {Q : α → Prop} {R : β → Prop}

/-- Whether a check ends in the same way if bindings of `h` are added to an environment in which `h`
does not occur, with a result that has the property `Q` or with an exact failure. -/
abbrev Overlooks (h : Expr) (x : Check α) (Q : α → Prop) : Prop :=
  Parallel (fun types types' => types.IsApart h ∧ types.Adds h types') (fun a b => a = b ∧ Q a)
    (fun e e' => e = e' ∧ e.IsExact) x x

theorem overlooks_pure {a : α} (property : Q a) : Overlooks h (pure a) Q :=
  parallel_pure ⟨rfl, property⟩

/-- An obstacle does not come from what is bound. -/
theorem overlooks_obstacle (o : Obstacle) : Overlooks h (throw (.obstacle o) : Check α) Q :=
  parallel_throw ⟨rfl, fun _ _ _ eq => by cases eq⟩

/-- Room has nothing to do with what is bound. -/
theorem overlooks_nested {room : Room} {step : Room → Check α}
    (inner : ∀ room, Overlooks h (step room) Q) :
    Overlooks h (room.nested (throw (.obstacle .tooDeep)) step) Q :=
  room.nested_rel (R := Parallel _ _ _) (overlooks_obstacle .tooDeep) inner

/-- What follows a step that overlooks `h` only has to do so for results with the property. -/
theorem Overlooks.bind {x : Check α} {f : α → Check β} (first : Overlooks h x Q)
    (next : ∀ a, Q a → Overlooks h (f a) R) : Overlooks h (x >>= f) R := by
  refine Parallel.bind first ?_
  rintro a _ ⟨rfl, property⟩
  exact next a property

/-- A refusal is exact if it counts too many arguments only where there are. -/
theorem overlooks_refuse {cause : TypeCause} (token : Option Token)
    (exact : ∀ given expected, cause = .tooManyArguments given expected → expected < given) :
    Overlooks h (refuse cause token : Check α) Q := by
  refine parallel_throw ⟨rfl, fun given expected token eq => ?_⟩
  cases eq
  exact exact given expected rfl

/-- Where two environments correspond, so do the computations that go on from them. -/
theorem parallel_attempt {I : Environment Classification → Environment Classification → Prop}
    {P : α → β → Prop} {x : Except Obstacle α} {y : Except Obstacle β} (same : Corresponds P x y) :
    Parallel I P (fun e e' => e = e' ∧ e.IsExact) (attempt x) (attempt y) := by
  cases same with
  | ok related => exact parallel_pure related
  | error o => exact parallel_throw ⟨rfl, fun _ _ _ eq => by cases eq⟩

section

variable (variable_h : h.isVariable = true)
include variable_h

/-- Where `h` does not occur in a key, it is apart from the key. -/
theorem isApart_of_allVariables {x : Expr} (apart : x.AllVariables h.IsApart) : h.IsApart x := by
  cases apart with
  | var itself _ => exact itself
  | _ => exact Expr.isApart_of_isVariable variable_h rfl

/-- A name apart from `h` is found past the bindings of `h`. -/
theorem overlooks_lookup {x : Expr} (apart : x.AllVariables h.IsApart) :
    Overlooks h (lookup x) fun found => ∀ c ∈ found, c.IsApart h := by
  rintro types types' ⟨values, adds⟩
  have same := adds.lookup_eq (isApart_of_allVariables variable_h apart)
  have looked : Corresponds (fun c d => c = d ∧ ∀ c' ∈ c, c'.IsApart h)
      (types.lookup x) (types'.lookup x) := by
    rw [same]
    cases found : types.lookup x with
    | error o => exact .error o
    | ok c =>
      refine .ok ⟨rfl, ?_⟩
      rintro c' rfl
      obtain ⟨-, -, -, property⟩ := values.of_lookup found
      exact property
  exact parallel_attempt looked types types' ⟨values, adds⟩

/-- A name apart from `h` is bound past the bindings of `h`. -/
theorem overlooks_bind {x : Expr} {c : Classification} (apart : x.AllVariables h.IsApart)
    (value : c.IsApart h) : Overlooks h (bind x c) fun _ => True := by
  rintro types types' ⟨values, adds⟩
  have changed := adds.set (isApart_of_allVariables variable_h apart) c
  have update : ∀ y y', types.set x c = y → types'.set x c = y' →
      Parallel (fun types types' => types.IsApart h ∧ types.Adds h types')
        (fun a b : Unit => a = b ∧ True) (fun e e' => e = e' ∧ e.IsExact)
        (do set (← attempt y) : Check Unit) (do set (← attempt y')) := by
    rintro y y' left right
    rw [left, right] at changed
    cases changed with
    | ok adds => exact fun _ _ _ => ⟨⟨rfl, trivial⟩, values.set ⟨apart, value⟩ left, adds⟩
    | error o => exact overlooks_obstacle o
  exact update _ _ rfl rfl types types' ⟨values, adds⟩

/-- In a scope apart from `h` an action overlooks `h` as before. -/
theorem overlooks_inScope {room : Room} {bindings : List (Expr × Classification)} {action : Check α}
    (all : ∀ b ∈ bindings, b.1.AllVariables h.IsApart ∧ b.2.IsApart h)
    (inner : Overlooks h action Q) :
    Overlooks h (inScope room bindings action) Q := by
  refine Parallel.between fun types types' ⟨values, adds⟩ =>
    ⟨fun types types' => types.IsApart h ∧ types.Adds h types', ⟨values.push, adds.push⟩, ?_,
      fun _ _ ⟨values, adds⟩ => ⟨fun _ _ _ => ⟨values.leave, adds.leave⟩, ?_⟩⟩
  rotate_left
  · rintro e _ ⟨rfl, -⟩
    split
    · exact ⟨values, adds⟩
    · exact ⟨values.leave, adds.leave⟩
  rintro types types' ⟨values, adds⟩
  have changed := adds.setAll fun b hb => isApart_of_allVariables variable_h (all b hb).1
  have entered : ∀ y y', types.setAll bindings = y → types'.setAll bindings = y' →
      Parallel (fun types types' => types.IsApart h ∧ types.Adds h types')
        (fun a b => a = b ∧ Q a) (fun e e' => e = e' ∧ e.IsExact)
        (do set (← attempt y); action : Check α) (do set (← attempt y'); action) := by
    rintro y y' left right
    rw [left, right] at changed
    cases changed with
    | ok adds =>
      exact fun _ _ _ => inner _ _ ⟨values.setAll all left, adds⟩
    | error o => exact overlooks_obstacle o
  exact entered _ _ rfl rfl types types' ⟨values, adds⟩

end

/-! ## Steps of a classification -/

/-- The parameters that a call binds, those that were supplied before and those that are supplied
now. -/
theorem isApart_append_zip {f : Function} {bound : List (Expr × Classification)}
    {supplied : List Classification} (apart : (Classification.function f bound).IsApart h)
    (all : ∀ c ∈ supplied, c.IsApart h) :
    ∀ b ∈ bound ++ f.parameters.zip supplied, b.1.AllVariables h.IsApart ∧ b.2.IsApart h := by
  cases apart with
  | function parameters _ keys values =>
    refine List.forall_mem_append.2 ⟨fun b hb => ⟨keys b hb, values b hb⟩, fun b hb => ?_⟩
    exact ⟨parameters _ (List.of_mem_zip hb).1, all _ (List.of_mem_zip hb).2⟩

/-- What is left of a function after a call with fewer arguments is apart from `h` if the function
and the arguments are. -/
theorem isApart_remaining {f : Function} {bound : List (Expr × Classification)}
    {supplied : List Classification} (given : Nat) (token : Option Token)
    (apart : (Classification.function f bound).IsApart h) (all : ∀ c ∈ supplied, c.IsApart h) :
    (Classification.function (remaining f given token)
      (bound ++ f.parameters.zip supplied)).IsApart h := by
  have both := isApart_append_zip apart all
  cases apart with
  | function parameters inner _ _ =>
    exact .function (fun p hp => parameters p (List.mem_of_mem_drop hp)) inner
      (fun b hb => (both b hb).1) fun b hb => (both b hb).2

/-- The last of some classifications apart from `h` is apart from it. -/
theorem overlooks_lastOf {cs : List Classification} (token : Option Token)
    (all : ∀ c ∈ cs, c.IsApart h) :
    Overlooks h (lastOf token cs) (Classification.IsApart h) := by
  unfold lastOf
  split
  · next c last => exact overlooks_pure (all c (List.mem_of_getLast? last))
  · exact overlooks_refuse token nofun

/-- To ask for an operand looks nothing up. -/
theorem overlooks_requireOperand (operand : Expr) (c : Classification) (token : Option Token) :
    Overlooks h (requireOperand operand c token) fun _ => True := by
  unfold requireOperand
  split
  · exact overlooks_refuse _ nofun
  · exact overlooks_pure trivial

/-- A sign looks nothing up. -/
theorem overlooks_signed (node operand : Expr) (c : Classification) :
    Overlooks h (signed node operand c) (Classification.IsApart h) := by
  cases c with
  | number => exact overlooks_pure .number
  | symbolic => exact overlooks_pure .symbolic
  | _ => exact overlooks_refuse _ nofun

/-- To ask for something that can be called looks nothing up. -/
theorem overlooks_callable {given : Nat} (token : Option Token) {c : Classification}
    (apart : c.IsApart h) :
    Overlooks h (callable given token c)
      fun r => (Classification.function r.1 r.2).IsApart h := by
  obtain ⟨f, bound, rfl, -, eq⟩ | ⟨f, bound, -, many, eq⟩ | eq := callable_cases given token c
  · exact eq ▸ overlooks_pure apart
  · rw [eq]
    refine overlooks_refuse token fun given expected eq => ?_
    cases eq
    exact many
  · exact eq ▸ overlooks_refuse token nofun

section

variable (variable_h : h.isVariable = true) {body : Room → Expr → Check Classification}
  (called : ∀ (room : Room) (e : Expr), e.AllVariables h.IsApart →
    Overlooks h (body room e) (Classification.IsApart h)) {room : Room}
include variable_h called

/-- A call of a function apart from `h` overlooks `h`, whether it is complete or not. -/
theorem overlooks_called {f : Function} {bound : List (Expr × Classification)} (given : Nat)
    {supplied : List Classification} (token : Option Token)
    (apart : (Classification.function f bound).IsApart h)
    (all : ∀ c ∈ supplied, c.IsApart h) :
    Overlooks h
      (if given = f.arity then
        inScope room (bound ++ f.parameters.zip supplied) (body room f.body)
      else pure (.function (remaining f given token) (bound ++ f.parameters.zip supplied)))
      (Classification.IsApart h) := by
  split
  · cases apart with
    | function parameters inner supplied' values =>
      exact overlooks_inScope variable_h
        (isApart_append_zip (.function parameters inner supplied' values) all)
        (called room _ inner)
  · exact overlooks_pure (isApart_remaining given token apart all)

omit variable_h called in
/-- The expressions of a list overlook `h` one after the other. -/
theorem overlooks_classifyAllWith {es : List Expr}
    (all : ∀ e ∈ es, Overlooks h (classifyWith body room e) (Classification.IsApart h)) :
    Overlooks h (classifyAllWith body room es) fun cs => ∀ c ∈ cs, c.IsApart h := by
  induction es with
  | nil =>
    rw [classifyAllWith]
    exact overlooks_pure nofun
  | cons e es ih =>
    obtain ⟨first, others⟩ := List.forall_mem_cons.1 all
    rw [classifyAllWith]
    exact first.bind fun c hc => (ih others).bind fun cs hcs =>
      overlooks_pure (List.forall_mem_cons.2 ⟨hc, hcs⟩)

/-- An expression apart from `h` overlooks `h`, with the bodies of functions given. -/
theorem overlooks_classifyWith {e : Expr} (apart : e.AllVariables h.IsApart) :
    Overlooks h (classifyWith body room e) (Classification.IsApart h) := by
  induction apart generalizing room with
  | number =>
    rw [classifyWith]
    exact overlooks_nested fun _ => overlooks_pure .number
  | var itself all _ =>
    rw [classifyWith]
    refine overlooks_nested fun _ =>
      (overlooks_lookup variable_h (.var itself all)).bind fun found property => ?_
    cases found with
    | none => exact overlooks_pure .unknown
    | some c => exact overlooks_pure (property c rfl)
  | unary _ inner =>
    rw [classifyWith]
    exact overlooks_nested fun _ => inner.bind fun c _ => overlooks_signed _ _ c
  | binary _ _ left right =>
    rw [classifyWith]
    exact overlooks_nested fun _ => left.bind fun c _ => right.bind fun d _ =>
      (overlooks_requireOperand _ c _).bind fun _ _ =>
        (overlooks_requireOperand _ d _).bind fun _ _ => overlooks_pure .number
  | group _ all | command _ all | block _ all =>
    rw [classifyWith]
    exact overlooks_nested fun _ =>
      (overlooks_classifyAllWith fun e he => all e he).bind fun cs hcs => overlooks_lastOf _ hcs
  | prototype =>
    rw [classifyWith]
    exact overlooks_nested fun _ => overlooks_refuse _ nofun
  | @function form name parameters head inner closed token named all body _ _ =>
    have self : (Classification.function ⟨form, name, parameters, head, inner, closed, token⟩
        []).IsApart h := .function all body nofun nofun
    rw [classifyWith]
    exact overlooks_nested fun _ =>
      (overlooks_bind variable_h named self).bind fun _ _ => overlooks_pure self
  | call _ _ callee all =>
    rw [classifyWith]
    exact overlooks_nested fun _ => callee.bind fun c hc =>
      (overlooks_callable _ hc).bind fun r hr =>
        (overlooks_classifyAllWith fun e he => all e he).bind fun cs hcs =>
          overlooks_called variable_h called _ _ hr hcs
  | binding target _ _ value =>
    -- the target is apart from `h` as well, so it is not bound anew
    rw [classifyWith]
    exact overlooks_nested fun _ => value.bind fun c hc =>
      (overlooks_bind variable_h target hc).bind fun _ _ => overlooks_pure hc

end

/-- Bindings of a variable that occurs nowhere make no difference to a classification. -/
theorem overlooks_classifyWithin (variable_h : h.isVariable = true) (depth : Nat) (room : Room)
    {e : Expr} (apart : e.AllVariables h.IsApart) :
    Overlooks h (classifyWithin depth room e) (Classification.IsApart h) := by
  induction depth generalizing room e with
  | zero => exact overlooks_obstacle .tooDeep
  | succ depth ih => exact overlooks_classifyWith variable_h (fun room _ => ih room) apart

/-! ## Expressions that mention the variable -/

/-- Whether a check keeps `h` out of the environment, and its result has the property `Q`. -/
def StaysApart (h : Expr) (x : Check α) (Q : α → Prop) : Prop :=
  ∀ types, types.IsApart h → Ends x types (fun a t => t.IsApart h ∧ Q a) fun _ _ => True

/-- What follows a step that keeps `h` out only has to do so for results with the property. -/
theorem StaysApart.bind {x : Check α} {f : α → Check β} (first : StaysApart h x Q)
    (next : ∀ a, Q a → StaysApart h (f a) R) : StaysApart h (x >>= f) R :=
  fun types apart => (first types apart).bind fun a t ended => next a ended.2 t ended.1

/-- What overlooks `h` keeps it out of the environment. -/
theorem Overlooks.staysApart (variable_h : h.isVariable = true) {x : Check α}
    (overlooks : Overlooks h x Q) : StaysApart h x Q := by
  intro types apart
  have adds : types.Adds h types :=
    .refl fun s hs b hb => isApart_of_allVariables variable_h (apart s hs b hb).1
  rw [Ends]
  obtain ⟨a, b, s, t, left, -, ⟨rfl, property⟩, later, -⟩ | ⟨e, e', s, t, left, -, -⟩ :=
    overlooks.ends ⟨apart, adds⟩
  · rw [left]
    exact ⟨later, property⟩
  · rw [left]
    trivial

/-- A step with less room keeps out what it keeps out with any room. -/
theorem staysApart_nested {room : Room} {step : Room → Check α}
    (inner : ∀ room, StaysApart h (step room) Q) :
    StaysApart h (room.nested (throw (.obstacle .tooDeep)) step) Q :=
  fun types apart => ends_nested trivial fun room => inner room types apart

variable {body : Room → Expr → Check Classification}

mutual

/-- An expression without definitions may mention `h`, and it is classified apart from it. -/
theorem staysApart_classifyWith (variable_h : h.isVariable = true)
    (called : ∀ (room : Room) (e : Expr), e.AllVariables h.IsApart →
      Overlooks h (body room e) (Classification.IsApart h)) (room : Room) {e : Expr}
    (plain : e.definitions = []) :
    StaysApart h (classifyWith body room e) (Classification.IsApart h) := by
  -- what overlooks `h` leaves everything apart from it
  have stays {β : Type} {x : Check β} {Q : β → Prop} (overlooks : Overlooks h x Q) :
      StaysApart h x Q := overlooks.staysApart variable_h
  rw [classifyWith]
  refine staysApart_nested fun room => ?_
  cases e with
  | number => exact stays (overlooks_pure .number)
  | var name subscripts token =>
    intro types apart
    have looked : Ends (lookup (.var name subscripts token)) types
        (fun found t => t = types ∧ ∀ c ∈ found, c.IsApart h) fun _ _ => True := by
      refine ends_lookup (fun found eq => ⟨rfl, ?_⟩) fun _ => trivial
      rintro c rfl
      obtain ⟨-, -, -, property⟩ := apart.of_lookup eq
      exact property
    refine looked.bind ?_
    rintro found t ⟨rfl, property⟩
    cases found with
    | none => exact ⟨apart, .unknown⟩
    | some c => exact ⟨apart, property c rfl⟩
  | unary op operand token =>
    have inner : operand.definitions = [] := plain
    exact (staysApart_classifyWith variable_h called room inner).bind fun c _ =>
      stays (overlooks_signed _ _ c)
  | binary op lhs rhs token =>
    obtain ⟨left, right⟩ := List.append_eq_nil_iff.1 plain
    exact (staysApart_classifyWith variable_h called room left).bind fun c _ =>
      (staysApart_classifyWith variable_h called room right).bind fun d _ => stays <|
        (overlooks_requireOperand _ c _).bind fun _ _ =>
          (overlooks_requireOperand _ d _).bind fun _ _ => overlooks_pure .number
  | group items token | command name items token | block name arguments items token =>
    exact (staysApart_classifyAllWith variable_h called room plain).bind fun cs all =>
      stays (overlooks_lastOf _ all)
  | prototype => exact stays (overlooks_refuse _ nofun)
  | function => cases plain
  | call callee arguments token =>
    obtain ⟨first, others⟩ := List.append_eq_nil_iff.1 plain
    exact (staysApart_classifyWith variable_h called room first).bind fun c apart =>
      (stays (overlooks_callable _ apart)).bind fun r apart =>
        (staysApart_classifyAllWith variable_h called room others).bind fun cs all =>
          stays (overlooks_called variable_h called _ _ apart all)
  | binding => exact absurd plain (List.append_ne_nil_of_right_ne_nil _ (List.cons_ne_nil _ _))

/-- Expressions without definitions keep `h` out, one after the other. -/
theorem staysApart_classifyAllWith (variable_h : h.isVariable = true)
    (called : ∀ (room : Room) (e : Expr), e.AllVariables h.IsApart →
      Overlooks h (body room e) (Classification.IsApart h)) (room : Room) {es : List Expr}
    (plain : Expr.definitionsOfAll es = []) :
    StaysApart h (classifyAllWith body room es) fun cs => ∀ c ∈ cs, c.IsApart h := by
  cases es with
  | nil =>
    rw [classifyAllWith]
    exact fun types apart => ⟨apart, nofun⟩
  | cons e es =>
    obtain ⟨first, others⟩ := List.append_eq_nil_iff.1 plain
    rw [classifyAllWith]
    exact (staysApart_classifyWith variable_h called room first).bind fun c hc =>
      (staysApart_classifyAllWith variable_h called room others).bind fun cs hcs types apart =>
        ⟨apart, List.forall_mem_cons.2 ⟨hc, hcs⟩⟩

end

end Typing

end TexAlgebra
