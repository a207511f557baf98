import TexAlgebra.Proofs.Evaluation.Agreement
import TexAlgebra.Proofs.Evaluation.Currying
/-!
# Isolated calls

A name is looked up in the scopes of all calls that are under way, the latest first. So a caller's
parameters change what a callee computes as soon as its body uses one of their names and does not
bind it (`Evaluation.apply_captured`).

They change nothing if the names that the callee can look up are others. Let `P` be a set of names
that the callers do not bind, and let the value of every global name of `P` be within `P` again:
then a call of a function of `P` has the same result under any callers as under none
(`Evaluation.apply_isolated`). The proof runs the two calls side by side. What one step preserves is
that the environments have the same innermost scope, on top of environments in which the same is
found under every name of `P`. Where a step fails both runs end, so nothing is asked of the
environments then.
-/

namespace TexAlgebra

open TexAlgebra.Expr

variable {P : String → Prop} {C : List String} {n : Nat} {env env' : Environment Expr}

open Environment

namespace Evaluation

variable {α β : Type} {Q : α → Prop} {room : Room}

/-! ## Calls -/

/-- Whether two states have two given environments and count fresh names alike, from `n` on. -/
structure AreAt (n : Nat) (env env' : Environment Expr) (s t : Evaluator) : Prop where
  left : s.environment = env
  right : t.environment = env'
  counter : s.anonymous = t.anonymous
  fresh : n ≤ s.anonymous

/-- Whether two states have the same innermost scope on top of two given environments. The scope
binds the names of `C`, and its values are within `P`. -/
def ShareScope (P : String → Prop) (C : List String) (n : Nat) (env env' : Environment Expr)
    (s t : Evaluator) : Prop :=
  ∃ scope : Scope Expr, (∀ b ∈ scope, IsWithin P [] b.2) ∧
    (∀ name ∈ C, (scope.named name).isSome) ∧ AreAt n (env.inner scope) (env'.inner scope) s t

/-- What leaves the environments as they are does so with any innermost scope. -/
theorem isolated_of_areAt {x : Eval α}
    (h : ∀ scope : Scope Expr, (∀ b ∈ scope, IsWithin P [] b.2) →
      (∀ name ∈ C, (scope.named name).isSome) →
      IsIsolated (AreAt n (env.inner scope) (env'.inner scope)) x Q) :
    IsIsolated (ShareScope P C n env env') x Q := by
  rintro s t ⟨scope, values, bound, related⟩
  obtain ⟨a, s', t', left, right, property, later⟩ | failed := h scope values bound s t related
  · exact .inl ⟨a, s', t', left, right, property, scope, values, bound, later⟩
  · exact .inr failed

/-- A name under which the same is found in two environments is looked up alike. -/
theorem isolated_lookup {x : Expr} (same : env.lookup x = env'.lookup x) :
    IsIsolated (AreAt n env env') (lookup x) fun v => env.lookup x = .ok v := by
  rintro s t related
  have left : lookup x s = attempt (env.lookup x) s := by
    rw [← related.left]
    rfl
  have right : lookup x t = attempt (env.lookup x) t := by
    rw [same, ← related.right]
    rfl
  rw [left, right]
  cases env.lookup x with
  | error o => exact .inr ⟨_, s, t, rfl, rfl⟩
  | ok v => exact .inl ⟨v, s, t, rfl, rfl, rfl, related⟩

/-- Two states that count alike make the same fresh name. -/
theorem isolated_freshName (token : Option Token) :
    IsIsolated (AreAt n env env') (freshName token) fun name =>
      ∃ i, n ≤ i ∧ name = anonymousName i token := by
  rintro s t ⟨left, right, counter, fresh⟩
  have made : freshName token t = (.ok (anonymousName s.anonymous token),
      { t with anonymous := s.anonymous + 1 }) := by
    rw [counter]
    rfl
  exact .inl ⟨_, _, _, rfl, made, ⟨s.anonymous, fresh, rfl⟩, left, right, rfl,
    Nat.le_succ_of_le fresh⟩

/-- Whether `remaining` lists the given parameters, each with a fresh name from `n` on or, if it
occurs in none of the arguments, without a new name. -/
def IsRenaming (n : Nat) (arguments parameters : List Expr)
    (remaining : List (Expr × Option Expr)) : Prop :=
  remaining.map (·.1) = parameters ∧
    ∀ r ∈ remaining, match r.2 with
      | none => r.1.occursInAny arguments = .ok false
      | some name => ∃ i token, n ≤ i ∧ name = anonymousName i token

/-- The parameters that are left get the same new names, for they are made where a parameter occurs
in the arguments and not where it is bound. -/
theorem isolated_freshParameters (arguments parameters : List Expr) :
    IsIsolated (AreAt n env env') (freshParameters arguments parameters)
      (IsRenaming n arguments parameters) := by
  induction parameters with
  | nil => exact isolated_pure ⟨rfl, fun _ h => (List.not_mem_nil h).elim⟩
  | cons p ps ih =>
    refine (isolated_attempt _).bind fun taken occurs => ?_
    cases taken with
    | false =>
      exact ih.bind fun rest ⟨params, later⟩ =>
        isolated_pure ⟨by rw [List.map_cons, params], List.forall_mem_cons.2 ⟨occurs, later⟩⟩
    | true =>
      have named : IsIsolated (AreAt n env env') (some <$> freshName p.token) fun q =>
          ∃ i, n ≤ i ∧ q = some (anonymousName i p.token) := by
        refine (isolated_freshName p.token).bind fun name ⟨i, le, eq⟩ => isolated_pure ?_
        exact ⟨i, le, congrArg some eq⟩
      refine named.bind fun q ⟨i, le, eq⟩ => ih.bind fun rest ⟨params, later⟩ => ?_
      subst eq
      exact isolated_pure ⟨by rw [List.map_cons, params],
        List.forall_mem_cons.2 ⟨⟨i, p.token, le, rfl⟩, later⟩⟩

/-- Whether an expression is what is left of `f` when the arguments are supplied. -/
def IsCurried (n : Nat) (f : Function) (arguments : List Expr) (token : Option Token)
    (e : Expr) : Prop :=
  ∃ remaining name, IsRenaming n arguments (f.parameters.drop arguments.length) remaining ∧
    e = (closure f arguments remaining name token).toExpr

/-- A partial application gives the same closure in two environments, for it looks nothing up. -/
theorem isolated_curry (f : Function) (arguments : List Expr) (token : Option Token) :
    IsIsolated (AreAt n env env') (curry room f arguments token) (IsCurried n f arguments token) :=
  (isolated_freshName token).bind fun name _ =>
    (isolated_freshParameters arguments _).bind fun remaining renamed =>
      (isolated_requireText _ _).bind fun _ _ =>
        (isolated_requireText _ _).bind fun _ _ => isolated_pure ⟨remaining, name, renamed, rfl⟩

/-- Every parameter is replaced by an argument, gets a new name, or stays. -/
theorem IsRenaming.latest_of_mem {f : Function} {arguments : List Expr}
    {remaining : List (Expr × Option Expr)}
    (h : IsRenaming n arguments (f.parameters.drop arguments.length) remaining) {name : String}
    (mem : name ∈ f.parameters.filterMap name?) :
    name ∈ (renamedParameters remaining).filterMap name? ∨
      Scope.latest name (f.parameters.zip arguments ++ renamings remaining) ≠ none := by
  obtain ⟨p, hp, named⟩ := List.mem_filterMap.1 mem
  rw [← List.take_append_drop arguments.length f.parameters] at hp
  rcases List.mem_append.1 hp with given | left
  · refine .inr fun unbound => ?_
    obtain ⟨i, hi, rfl⟩ := List.mem_iff_getElem.1 given
    rw [List.length_take] at hi
    have pair : (f.parameters[i], arguments[i]) ∈ f.parameters.zip arguments :=
      List.mem_iff_getElem.2 ⟨i, by rw [List.length_zip]; omega, List.getElem_zip⟩
    refine Scope.latest_eq_none_iff.1 unbound _ (List.mem_append_left _ pair) ?_
    rwa [List.getElem_take] at named
  · rw [← h.1] at left
    obtain ⟨⟨p, q⟩, hr, rfl⟩ := List.mem_map.1 left
    cases q with
    | none => exact .inl (List.mem_filterMap.2 ⟨p, List.mem_map.2 ⟨_, hr, rfl⟩, named⟩)
    | some x =>
      refine .inr fun unbound => ?_
      have pair : (p, x) ∈ renamings remaining := List.mem_filterMap.2 ⟨_, hr, rfl⟩
      exact Scope.latest_eq_none_iff.1 unbound _ (List.mem_append_right _ pair) named

/-- Whatever replaces a parameter is a fresh name. -/
theorem IsRenaming.of_mem_renamings {arguments parameters : List Expr}
    {remaining : List (Expr × Option Expr)} (h : IsRenaming n arguments parameters remaining)
    {b : Expr × Expr} (mem : b ∈ renamings remaining) :
    ∃ i token, n ≤ i ∧ b.2 = anonymousName i token := by
  obtain ⟨⟨p, q⟩, hr, eq⟩ := List.mem_filterMap.1 mem
  obtain ⟨x, rfl, rfl⟩ := Option.map_eq_some_iff.1 eq
  exact h.2 _ hr

/-- What is left of a function after a partial application is within the names within which the
function and the arguments are, and the fresh ones. -/
theorem isWithin_of_isCurried {f : Function} {arguments : List Expr} {token : Option Token}
    {e : Expr} (h : IsCurried n f arguments token e) (within : IsWithin P [] f.toExpr)
    (values : ∀ a ∈ arguments, IsWithin P [] a) (fresh : ∀ i, n ≤ i → P ("anon" ++ i.repr)) :
    IsWithin P [] e := by
  obtain ⟨remaining, name, renamed, rfl⟩ := h
  refine .function ((isWithin_toExpr.1 within).substitute ?_ fun name => renamed.latest_of_mem)
  intro b hb
  rcases List.mem_append.1 hb with hb | hb
  · exact values b.2 (List.of_mem_zip hb).2
  · obtain ⟨i, token, le, eq⟩ := renamed.of_mem_renamings hb
    rw [eq]
    exact .var (.inl (fresh i le))

/-- Whether evaluating the body of a called function comes to the same on top of any environments
that agree. -/
def BodiesIsolated (P : String → Prop) (n : Nat) (body : Room → Expr → Eval Expr) : Prop :=
  ∀ (env env' : Environment Expr) (C : List String) (room : Room) (e : Expr), env.Agrees P env' →
    IsWithin P C e → IsIsolated (ShareScope P C n env env') (body room e) (IsWithin P [])

variable {body : Room → Expr → Eval Expr} {callee : Expr} {arguments : List Expr}

/-- In a scope that binds the parameters to values within `P` a body of `P` ends alike, and the
scope is left again. -/
theorem isolated_inScope {f : Function} (isolated : BodiesIsolated P n body)
    (agrees : env.Agrees P env') (within : IsWithin P [] f.toExpr)
    (values : ∀ a ∈ arguments, IsWithin P [] a) (count : arguments.length = f.arity) :
    IsIsolated (AreAt n env env') (inScope room (f.parameters.zip arguments) (body room f.body))
      (IsWithin P []) := by
  -- first the scope with its bindings: it is the same on top of both environments
  have inner : IsIsolated (ShareScope P [] n env env')
      (do update (·.setAll (f.parameters.zip arguments)); body room f.body) (IsWithin P []) := by
    rintro s t ⟨scope, old, -, left, right, counter, fresh⟩
    have made := setAll_inner scope env (f.parameters.zip arguments)
    have made' := setAll_inner scope env' (f.parameters.zip arguments)
    rw [← left] at made
    rw [← right] at made'
    cases result : scope.setAll (f.parameters.zip arguments) with
    | error o =>
      rw [result] at made made'
      exact .inr ⟨_, s, t, bind_of_error (update_of_error made),
        bind_of_error (update_of_error made')⟩
    | ok inner =>
      rw [result] at made made'
      rw [bind_of_ok (update_of_ok made), bind_of_ok (update_of_ok made')]
      have values' : ∀ b ∈ inner, IsWithin P [] b.2 := by
        intro b hb
        rcases Scope.mem_of_setAll result hb with hb | hb
        · exact old b hb
        · exact values _ (List.of_mem_zip hb).2
      -- every parameter is bound in it, since the arguments are as many
      have bound : ∀ name ∈ f.parameters.filterMap name?, (inner.named name).isSome := by
        intro name mem
        obtain ⟨p, hp, named⟩ := List.mem_filterMap.1 mem
        obtain ⟨i, hi, rfl⟩ := List.mem_iff_getElem.1 hp
        have hi' : i < arguments.length := count ▸ hi
        refine Scope.isSome_named_of_setAll result
          (.inr ⟨(f.parameters[i], arguments[i]), ?_, named⟩)
        exact List.mem_iff_getElem.2 ⟨i, by rw [List.length_zip]; omega, List.getElem_zip⟩
      obtain ⟨a, s', t', hx, hy, property, scope, all, -, related⟩ | failed :=
        isolated env env' _ room f.body agrees (isWithin_toExpr.1 within)
          { s with environment := env.inner inner } { t with environment := env'.inner inner }
          ⟨inner, values', bound, rfl, rfl, counter, fresh⟩
      · exact .inl ⟨a, s', t', hx, hy, property, scope, all, by simp, related⟩
      · exact .inr failed
  rintro s t related
  -- then what opens and closes it
  have pushed : ShareScope P [] n env env' { s with environment := s.environment.push }
      { t with environment := t.environment.push } :=
    ⟨[], by simp, by simp, congrArg push related.left, congrArg push related.right,
      related.counter, related.fresh⟩
  obtain ⟨a, s', t', hx, hy, property, scope, -, -, left, right, counter, fresh⟩ |
    ⟨failure, s', t', hx, hy⟩ := inner _ _ pushed
  · refine .inl ⟨a, _, _, inScope_of_ok hx, inScope_of_ok hy, property, ?_⟩
    exact ⟨by rw [left, leave_inner], by rw [right, leave_inner], counter, fresh⟩
  · exact .inr ⟨failure, _, _, inScope_of_error hx, inScope_of_error hy⟩

/-- A call of a function of `P` ends alike in two environments that agree on `P`. -/
theorem isolated_apply (isolated : BodiesIsolated P n body) (agrees : env.Agrees P env')
    (fresh : ∀ i, n ≤ i → P ("anon" ++ i.repr)) (named : callee.IsNamedIn P)
    (values : ∀ a ∈ arguments, IsWithin P [] a) (token : Option Token) :
    IsIsolated (AreAt n env env') (apply body room callee arguments token) (IsWithin P []) := by
  refine (isolated_lookup (agrees.same callee named)).bind fun value found => ?_
  cases function : value.bind function? with
  | none => exact isolated_pure (.call named values)
  | some f =>
    obtain ⟨e, rfl, hf⟩ := Option.bind_eq_some_iff.1 function
    obtain rfl := eq_toExpr_of_function? hf
    have within := agrees.within callee _ named found
    simp only
    split
    · exact isolated_throw
    · split
      · next full => exact isolated_inScope isolated agrees within values full
      · exact (isolated_curry f arguments token).imp fun e curried =>
          isWithin_of_isCurried curried within values fresh

/-! ## Expressions -/

/-- A binding goes to the scope that two states share. -/
theorem isolated_bind {x v : Expr} (h : IsWithin P [] v) :
    IsIsolated (ShareScope P C n env env') (bind x v) fun _ => True := by
  rintro s t ⟨scope, values, bound, left, right, counter, fresh⟩
  have made := set_inner scope env x v
  have made' := set_inner scope env' x v
  rw [← left] at made
  rw [← right] at made'
  rw [bind]
  cases result : scope.set x v with
  | error o =>
    rw [result] at made made'
    rw [update_of_error made, update_of_error made']
    exact .inr ⟨_, s, t, rfl, rfl⟩
  | ok inner =>
    rw [result] at made made'
    rw [update_of_ok made, update_of_ok made']
    refine .inl ⟨(), _, _, rfl, rfl, trivial, inner, fun b hb => ?_, fun name mem => ?_, rfl, rfl,
      counter, fresh⟩
    · rcases Scope.mem_of_set result hb with hb | rfl
      · exact values b hb
      · exact h
    · exact Scope.isSome_named_of_set result (bound name mem)

/-- A definition binds in the common scope and nowhere else. -/
theorem isolated_define {x v : Expr} (token : Option Token) (h : IsWithin P [] v) :
    IsIsolated (ShareScope P C n env env') (define room x v token) (IsWithin P []) := by
  unfold define
  split
  · next f function =>
    obtain rfl := eq_toExpr_of_function? function
    have inner := isWithin_toExpr.1 h
    have renamed : IsWithin P [] (f.renamed x).toExpr := .function inner
    exact (isolated_bind renamed).bind fun _ _ => isolated_pure renamed
  · exact (isolated_bind h).bind fun _ _ =>
      (isolated_requireText _ _).bind fun _ _ =>
        (isolated_requireText _ _).bind fun _ _ => isolated_pure (.binding h)

/-- A variable of `P` is found below or in the common scope, and a name of `C` in the common scope.
-/
theorem isolated_var {name : String} {subscripts : List Expr} {token : Option Token}
    (agrees : env.Agrees P env') (located : P name ∨ subscripts = [] ∧ name ∈ C) :
    IsIsolated (ShareScope P C n env env') (lookup (.var name subscripts token)) fun value =>
      IsWithin P [] (value.getD (.var name subscripts token)) := by
  refine isolated_of_areAt fun scope values bound => ?_
  rcases located with named | ⟨rfl, mem⟩
  · have here : IsNamedIn P (.var name subscripts token) := by
      rintro _ ⟨⟩
      exact named
    have agrees := agrees.inner values
    refine (isolated_lookup (agrees.same _ here)).imp fun value found => ?_
    cases value with
    | none => exact .var (.inl named)
    | some v => exact agrees.within _ v here found
  · -- a name of the innermost scope is found there, whatever is below
    obtain ⟨v, hv⟩ := Option.isSome_iff_exists.1 (bound name mem)
    have looked : ∀ env : Environment Expr,
        (env.inner scope).lookup (.var name [] token) = .ok (some v) := by
      intro env
      rw [lookup_inner, Scope.lookup_name, hv]
      rfl
    refine (isolated_lookup ((looked env).trans (looked env').symm)).imp fun value found => ?_
    cases (looked env).symm.trans found
    obtain ⟨y, member, -⟩ := Scope.mem_of_lookup ((Scope.lookup_name scope name token).trans
      (congrArg Except.ok hv))
    exact values _ member

/-- Expressions that end alike do so one after the other. -/
theorem isolated_evaluateAllWith {es : List Expr}
    (all : ∀ e ∈ es,
      IsIsolated (ShareScope P C n env env') (evaluateWith body room e) (IsWithin P [])) :
    IsIsolated (ShareScope P C n env env') (evaluateAllWith body room es)
      fun vs => ∀ v ∈ vs, IsWithin P [] v := by
  induction es with
  | nil =>
    rw [evaluateAllWith]
    exact isolated_pure fun _ h => (List.not_mem_nil h).elim
  | cons e es ih =>
    rw [evaluateAllWith]
    exact (all e List.mem_cons_self).bind fun v hv =>
      (ih fun e he => all e (List.mem_cons_of_mem _ he)).bind fun vs hvs =>
        isolated_pure (List.forall_mem_cons.2 ⟨hv, hvs⟩)

/-- An expression within `P` and the names of the common scope ends alike on top of environments
that agree on `P`. The induction is on the form of the expression, with the calls of functions
given. -/
theorem isolated_evaluateWith (isolated : BodiesIsolated P n body) (agrees : env.Agrees P env')
    (fresh : ∀ i, n ≤ i → P ("anon" ++ i.repr)) {e : Expr} (h : IsWithin P C e) :
    IsIsolated (ShareScope P C n env env') (evaluateWith body room e) (IsWithin P []) := by
  induction h generalizing room with
  | number =>
    rw [evaluateWith]
    exact isolated_nested fun room => isolated_pure .number
  | var located =>
    rw [evaluateWith]
    exact isolated_nested fun room =>
      (isolated_var agrees located).bind fun _ within => isolated_pure within
  | unary _ inner =>
    rw [evaluateWith]
    exact isolated_nested fun room => inner.bind fun v hv => isolated_signed _ hv
  | binary _ _ left right =>
    rw [evaluateWith]
    exact isolated_nested fun room =>
      left.bind fun v hv => right.bind fun w hw => isolated_operation _ hv hw
  | group _ all =>
    rw [evaluateWith]
    exact isolated_nested fun room =>
      (isolated_evaluateAllWith fun e he => all e he).bind fun _ hvs =>
        isolated_pure (.group hvs)
  | command _ all =>
    rw [evaluateWith]
    exact isolated_nested fun room =>
      (isolated_evaluateAllWith fun e he => all e he).bind fun _ hvs =>
        isolated_pure (.command hvs)
  | block _ all =>
    rw [evaluateWith]
    exact isolated_nested fun room =>
      (isolated_evaluateAllWith fun e he => all e he).bind fun _ hvs =>
        isolated_pure (.block hvs)
  | prototype =>
    rw [evaluateWith]
    exact isolated_nested fun room => isolated_throw
  | function inner _ =>
    rw [evaluateWith]
    exact isolated_nested fun room => (isolated_bind (.function inner)).bind fun _ _ =>
      (isolated_requireText _ _).bind fun _ _ => isolated_pure (.function inner)
  | call named _ all =>
    rw [evaluateWith]
    refine isolated_nested fun room =>
      (isolated_evaluateAllWith fun e he => all e he).bind fun vs hvs => ?_
    -- the scope belongs to the environments in which the function is called
    exact isolated_of_areAt fun scope values _ =>
      isolated_apply isolated (agrees.inner values) fresh named hvs _
  | binding _ bound =>
    rw [evaluateWith]
    exact isolated_nested fun room => bound.bind fun v hv => isolated_define _ hv

/-- Bodies end alike however many calls may be nested in them. -/
theorem bodiesIsolated_evaluateWithin (fresh : ∀ i, n ≤ i → P ("anon" ++ i.repr)) (depth : Nat) :
    BodiesIsolated P n (evaluateWithin depth) := by
  induction depth with
  | zero => exact fun _ _ _ _ _ _ _ => isolated_throw
  | succ depth ih =>
    exact fun _ _ _ _ _ agrees within => isolated_evaluateWith ih agrees fresh within

/-- A call of a function of one parameter whose body is an operation on two names. -/
theorem apply_operation {s : Evaluator} {form : FunctionForm} {name a : Expr} {p l r : String}
    {op : Operator} {head t u v w whole : Option Token} {closed : List (Expr × Expr)}
    (token : Option Token)
    (found : s.environment.lookup callee = .ok (some (.function form name [.var p [] t] head
      (.binary op (.var l [] u) (.var r [] v) w) closed whole))) :
    (apply (evaluateWithin 1) .unbounded callee [a] token s).1 =
      (operation op
        (((s.environment.inner [(.var p [] t, a)]).named l).getD (.var l [] u))
        (((s.environment.inner [(.var p [] t, a)]).named r).getD (.var r [] v)) w
        { s with environment := s.environment.inner [(.var p [] t, a)] }).1 := by
  have full := @apply_of_full [a] s ⟨form, name, [.var p [] t], head,
    .binary op (.var l [] u) (.var r [] v) w, closed, whole⟩ token .unbounded
    (evaluateWithin 1) callee
    found rfl
  have name (x : String) (t : Option Token) (s : Evaluator) :=
    @evaluateWith_name s .unbounded (evaluateWithin 0) x t Room.noConfusion
  rw [full, inScope_of_setAll rfl]
  show (evaluateWith (evaluateWithin 0) .unbounded _ _).1 = _
  rw [evaluateWith, Room.nested]
  dsimp only
  rw [bind_of_ok (name _ _ _), bind_of_ok (name _ _ _)]
  rfl

/-! ## Calls under callers -/

/-- A call has the same result, be it a value or a failure, under any callers as under none if the
callers bind no name of `P`, the callee and the arguments are within `P`, and so is the value of
every global name of `P`. The names that are still fresh are to be in `P` too. Under the callers
fewer calls can still be nested and there is less room, so the call may also fail there for want of
them. -/
theorem apply_isolated {globals : Scope Expr} {callers : List (Scope Expr)} {callee : Expr}
    {arguments : List Expr} {inner outer : Nat} {room room' : Room} (token : Option Token)
    (le : inner ≤ outer) (less : room ≤ room')
    (apart : ∀ scope ∈ callers, ∀ b ∈ scope, ∃ name ∈ b.1.variableName?, ¬ P name)
    (closed : ∀ b ∈ globals, b.1.IsNamedIn P → IsWithin P [] b.2) (named : callee.IsNamedIn P)
    (values : ∀ a ∈ arguments, IsWithin P [] a) (fresh : ∀ i, n ≤ i → P ("anon" ++ i.repr)) :
    (apply (evaluateWithin inner) room callee arguments token ⟨⟨globals, callers⟩, n⟩).1 =
        .error (.obstacle .tooDeep) ∨
      (apply (evaluateWithin inner) room callee arguments token ⟨⟨globals, callers⟩, n⟩).1 =
        (apply (evaluateWithin outer) room' callee arguments token ⟨⟨globals, []⟩, n⟩).1 := by
  have related : AreAt n ⟨globals, callers⟩ ⟨globals, []⟩ ⟨⟨globals, callers⟩, n⟩
      ⟨⟨globals, []⟩, n⟩ := ⟨rfl, rfl, rfl, le_rfl⟩
  have isolated := @isolated_apply P n ⟨globals, callers⟩ ⟨globals, []⟩ room
    (evaluateWithin inner) callee arguments (bodiesIsolated_evaluateWithin fresh inner)
    (agrees_of_apart closed apart) fresh named values token
  have same := isolated.fst_eq related
  obtain ⟨t, failed⟩ | deeper :=
    abridges_apply (fun _ _ less => abridges_evaluateWithin le less) less callee arguments token
      ⟨⟨globals, []⟩, n⟩
  · exact .inl (same.trans (congrArg Prod.fst failed))
  · exact .inr (same.trans (congrArg Prod.fst deeper))

/-- The function of `x` with body `x + y`, where `y` is not bound, gives `1 + y` for `1`, also under
a caller that binds `x` and `z`. -/
theorem apply_isolated_sum :
    let x : Expr := .var "x" [] none
    let y : Expr := .var "y" [] none
    let z : Expr := .var "z" [] none
    let f : Expr := .var "f" [] none
    let one : Expr := .number "1" none
    let two : Expr := .number "2" none
    let sum : Function := ⟨.defined, f, [x], none, .binary .plus x y none, [], none⟩
    (apply (evaluateWithin 1) .unbounded f [one] none
        ⟨⟨[(f, sum.toExpr)], [[(x, two), (z, two)]]⟩, 0⟩).1 =
      .ok (.binary .plus one y none) := by
  intro x y z f one two sum
  have long : ∀ i : Nat, 1 < ("anon" ++ i.repr).length := by
    intro i
    rw [String.length_append]
    exact Nat.lt_add_right _ (by decide)
  have one_letter : ∀ i : Nat, "anon" ++ i.repr ≠ "x" ∧ "anon" ++ i.repr ≠ "z" := by
    intro i
    refine ⟨fun eq => ?_, fun eq => ?_⟩
    all_goals
      have := eq ▸ long i
      exact absurd this (by decide)
  have isolated := @apply_isolated (fun name => name ≠ "x" ∧ name ≠ "z") 0 [(f, sum.toExpr)]
    [[(x, two), (z, two)]] f [one] 1 1 .unbounded .unbounded none le_rfl (Room.le_refl _)
    (List.forall_mem_singleton.2 (List.forall_mem_cons.2 ⟨⟨"x", rfl, by decide⟩,
      List.forall_mem_singleton.2 ⟨"z", rfl, by decide⟩⟩))
    (List.forall_mem_singleton.2 fun _ => .function (.binary
      (.var (.inr ⟨rfl, List.mem_singleton_self _⟩)) (.var (.inl (by decide)))))
    (by
      rintro _ ⟨⟩
      decide)
    (List.forall_mem_singleton.2 .number) fun i _ => one_letter i
  have found : ∀ callers : List (Scope Expr), callers = [] ∨ callers = [[(x, two), (z, two)]] →
      (⟨[(f, sum.toExpr)], callers⟩ : Environment Expr).lookup f = .ok (some sum.toExpr) := by
    rintro _ (rfl | rfl) <;> rw [Environment.lookup_name] <;> rfl
  have alone : (apply (evaluateWithin 1) .unbounded f [one] none ⟨⟨[(f, sum.toExpr)], []⟩, 0⟩).1 =
      .ok (.binary .plus one y none) := by
    rw [apply_operation none (found _ (.inl rfl))]
    rfl
  have under : (apply (evaluateWithin 1) .unbounded f [one] none
      ⟨⟨[(f, sum.toExpr)], [[(x, two), (z, two)]]⟩, 0⟩).1 = .ok (.binary .plus one y none) := by
    rw [apply_operation none (found _ (.inr rfl))]
    rfl
  refine (isolated.resolve_left fun failed => ?_).trans alone
  rw [under] at failed
  cases failed

/-- The function of `x` with body `x + y`, where `y` is not bound globally, gives `1 + y` for `1`.
Under a caller that binds `y` to `5` it gives `6`. -/
theorem apply_captured :
    let x : Expr := .var "x" [] none
    let y : Expr := .var "y" [] none
    let f : Expr := .var "f" [] none
    let one : Expr := .number "1" none
    let sum : Function := ⟨.defined, f, [x], none, .binary .plus x y none, [], none⟩
    (apply (evaluateWithin 1) .unbounded f [one] none ⟨⟨[(f, sum.toExpr)], []⟩, 0⟩).1 =
        .ok (.binary .plus one y none) ∧
      (apply (evaluateWithin 1) .unbounded f [one] none
        ⟨⟨[(f, sum.toExpr)], [[(y, .number "5" none)]]⟩, 0⟩).1 = .ok (.number "6" none) := by
  intro x y f one sum
  have found : ∀ callers : List (Scope Expr), callers = [] ∨ callers = [[(y, .number "5" none)]] →
      (⟨[(f, sum.toExpr)], callers⟩ : Environment Expr).lookup f = .ok (some sum.toExpr) := by
    rintro _ (rfl | rfl) <;> rw [Environment.lookup_name] <;> rfl
  constructor
  · rw [apply_operation none (found _ (.inl rfl))]
    rfl
  · rw [apply_operation none (found _ (.inr rfl))]
    rfl

end Evaluation

end TexAlgebra
