import TexAlgebra.Proofs.Evaluation.Isolation
/-!
# What a closure depends on

The arguments of a partial application are put into the body of what is left, and are evaluated
again whenever that is called. So a name that had no value when the argument was supplied is looked
up again, and a closure changes with it (`Evaluation.apply_closure_changed`).

It depends on nothing else. If its parameters are plain names, and its body is built from numbers,
signs, operators and these names alone, then a call has the same result in any two states in which
the names of the supplied arguments are looked up alike (`Evaluation.apply_curried`).
-/

namespace TexAlgebra

namespace Expr

/-! ## Bodies and arguments -/

/-- The expressions built from numbers, signs, operators and the plain names of a list. -/
inductive IsComposed (C : List String) : Expr → Prop
  | number {text : String} {token : Option Token} : IsComposed C (.number text token)
  | var {name : String} {token : Option Token} (mem : name ∈ C) :
    IsComposed C (.var name [] token)
  | unary {op : Operator} {operand : Expr} {token : Option Token}
      (inner : IsComposed C operand) : IsComposed C (.unary op operand token)
  | binary {op : Operator} {lhs rhs : Expr} {token : Option Token} (left : IsComposed C lhs)
      (right : IsComposed C rhs) : IsComposed C (.binary op lhs rhs token)

/-- The expressions that define nothing, where `V` holds of every variable that is looked up for its
value and `F` of everything that is called. -/
inductive IsSymbolic (V F : Expr → Prop) : Expr → Prop
  | number {text : String} {token : Option Token} : IsSymbolic V F (.number text token)
  | var {name : String} {subscripts : List Expr} {token : Option Token}
      (looked : V (.var name subscripts token)) : IsSymbolic V F (.var name subscripts token)
  | unary {op : Operator} {operand : Expr} {token : Option Token}
      (inner : IsSymbolic V F operand) : IsSymbolic V F (.unary op operand token)
  | binary {op : Operator} {lhs rhs : Expr} {token : Option Token} (left : IsSymbolic V F lhs)
      (right : IsSymbolic V F rhs) : IsSymbolic V F (.binary op lhs rhs token)
  | group {items : List Expr} {token : Option Token} (all : ∀ e ∈ items, IsSymbolic V F e) :
    IsSymbolic V F (.group items token)
  | command {name : String} {arguments : List Expr} {token : Option Token}
      (all : ∀ e ∈ arguments, IsSymbolic V F e) : IsSymbolic V F (.command name arguments token)
  | block {name : String} {arguments : List String} {statements : List Expr}
      {token : Option Token} (all : ∀ e ∈ statements, IsSymbolic V F e) :
    IsSymbolic V F (.block name arguments statements token)
  | call {callee : Expr} {arguments : List Expr} {token : Option Token} (called : F callee)
      (all : ∀ e ∈ arguments, IsSymbolic V F e) : IsSymbolic V F (.call callee arguments token)

variable {V V' F F' : Expr → Prop} {C : List String} {e : Expr}

/-- An expression stays symbolic if more names may be looked up and called. -/
theorem IsSymbolic.mono (h : IsSymbolic V F e) (looked : ∀ x, V x → V' x)
    (called : ∀ x, F x → F' x) : IsSymbolic V' F' e := by
  induction h with
  | number => exact .number
  | var h => exact .var (looked _ h)
  | unary _ inner => exact .unary inner
  | binary _ _ left right => exact .binary left right
  | group _ all => exact .group all
  | command _ all => exact .command all
  | block _ all => exact .block all
  | call h _ all => exact .call (called _ h) all

/-- Putting symbolic expressions in place of the names of a composed one gives a symbolic one. -/
theorem IsComposed.substitute {bindings : List (Expr × Expr)} (h : IsComposed C e)
    (leaves : ∀ name ∈ C, ∀ token : Option Token,
      IsSymbolic V F ((Scope.latest name bindings).getD (.var name [] token))) :
    IsSymbolic V F (e.substitute bindings) := by
  induction h with
  | number =>
    rw [substitute_number]
    exact .number
  | var mem =>
    rw [substitute_name]
    exact leaves _ mem _
  | unary _ inner =>
    rw [substitute_unary]
    exact .unary inner
  | binary _ _ left right =>
    rw [substitute_binary]
    exact .binary left right

/-! ## What does not occur -/

theorem either_eq_false {a b : Except Obstacle Bool} (h : either a b = .ok false) :
    a = .ok false ∧ b = .ok false := by
  obtain ⟨found, result, rest⟩ := ok_of_bind h
  cases found with
  | true => cases rest
  | false => exact ⟨result, rest⟩

/-- What occurs in none of some expressions occurs in no single one of them. -/
theorem occursInAny_eq_false {x : Expr} {es : List Expr} (h : x.occursInAny es = .ok false) :
    ∀ e ∈ es, x.occursIn e = .ok false := by
  induction es with
  | nil => exact fun _ mem => (List.not_mem_nil mem).elim
  | cons e es ih =>
    rw [occursInAny] at h
    obtain ⟨first, rest⟩ := either_eq_false h
    exact List.forall_mem_cons.2 ⟨first, ih rest⟩

/-- A variable that does not occur in an expression does not match it as a whole. -/
theorem matchesWith_eq_false_of_occursIn {x : Expr} (h : x.occursIn e = .ok false) :
    e.matchesWith x = .ok false := by
  rw [occursIn.eq_def] at h
  obtain ⟨found, result, rest⟩ := ok_of_bind h
  cases found with
  | true => cases rest
  | false => exact result

/-- What does not occur in an expression other than a function occurs in no part of it. -/
theorem occursIn_part_eq_false {x part : Expr} (h : x.occursIn e = .ok false)
    (no_function : e.isFunction = false) (mem : part ∈ e.parts) : x.occursIn part = .ok false := by
  have apart := matchesWith_eq_false_of_occursIn h
  rw [occursIn.eq_def, apart] at h
  cases e with
  | number => cases mem
  | function => cases no_function
  | unary =>
    obtain rfl := List.mem_singleton.1 mem
    exact h
  | binary op lhs rhs token | binding lhs rhs token =>
    have h : either (x.occursIn lhs) (x.occursIn rhs) = .ok false := h
    obtain ⟨left, right⟩ := either_eq_false h
    rcases List.mem_cons.1 mem with rfl | mem
    · exact left
    · obtain rfl := List.mem_singleton.1 mem
      exact right
  | call callee arguments token =>
    have h : either (x.occursIn callee) (x.occursInAny arguments) = .ok false := h
    obtain ⟨left, right⟩ := either_eq_false h
    rcases List.mem_cons.1 mem with rfl | mem
    · exact left
    · exact occursInAny_eq_false right _ mem
  | _ => exact occursInAny_eq_false h _ mem

/-- What is called in a symbolic expression has the name of none of the variables that do not occur
in it. -/
theorem IsSymbolic.avoids {Q : Expr → Prop} (h : IsSymbolic V F e)
    (plain : ∀ p, Q p → p.name?.isSome) (unused : ∀ p, Q p → p.occursIn e = .ok false) :
    IsSymbolic V (fun x => F x ∧ ∀ p, Q p → x.name? ≠ p.name?) e := by
  induction h with
  | number => exact .number
  | var h => exact .var h
  | unary _ inner =>
    exact .unary (inner fun p hp =>
      occursIn_part_eq_false (unused p hp) rfl (List.mem_singleton_self _))
  | binary _ _ left right =>
    refine .binary (left fun p hp => ?_) (right fun p hp => ?_)
    · exact occursIn_part_eq_false (unused p hp) rfl List.mem_cons_self
    · exact occursIn_part_eq_false (unused p hp) rfl
        (List.mem_cons_of_mem _ (List.mem_singleton_self _))
  | group _ all =>
    exact .group fun e he => all e he fun p hp => occursIn_part_eq_false (unused p hp) rfl he
  | command _ all =>
    exact .command fun e he => all e he fun p hp => occursIn_part_eq_false (unused p hp) rfl he
  | block _ all =>
    exact .block fun e he => all e he fun p hp => occursIn_part_eq_false (unused p hp) rfl he
  | call called _ all =>
    -- what is called has none of the names, since they do not occur in the call
    refine .call ⟨called, fun p hp same => ?_⟩ fun e he => all e he fun p hp =>
      occursIn_part_eq_false (unused p hp) rfl (List.mem_cons_of_mem _ he)
    have callee := matchesWith_eq_false_of_occursIn
      (occursIn_part_eq_false (unused p hp) rfl List.mem_cons_self)
    obtain ⟨name, hp⟩ := Option.isSome_iff_exists.1 (plain p hp)
    obtain ⟨token, rfl⟩ := name?_eq_some.1 hp
    rw [matchesWith_name, same] at callee
    simp [name?] at callee

end Expr

open TexAlgebra.Expr Environment

namespace Evaluation

variable {V F : Expr → Prop} {s t : Evaluator} {body : Room → Expr → Eval Expr} {room : Room}

/-! ## Evaluation of symbolic expressions -/

/-- A name has the same value in two states if it has the same one in their environments. -/
theorem agree_lookup {x : Expr} (same : s.environment.lookup x = t.environment.lookup x) :
    Agree False (lookup x) s (lookup x) t := by
  obtain ⟨r, left, right⟩ := @agree_attempt _ s t False (s.environment.lookup x)
  exact ⟨r, left, by rw [same] at right; exact right⟩

/-- The call of a name that is bound to no function stays as it is in both states. -/
theorem agree_apply_uncalled {callee : Expr} {arguments : List Expr} {token : Option Token}
    (same : s.environment.lookup callee = t.environment.lookup callee)
    (no_function : ∀ v, s.environment.lookup callee = .ok (some v) → v.isFunction = false) :
    Agree False (apply body room callee arguments token) s
      (apply body room callee arguments token) t := by
  obtain ⟨r, left, right | ⟨none, -⟩⟩ := agree_lookup same
  swap
  · exact none.elim
  cases r with
  | error e => exact ⟨.error e, bind_of_error left, .inl (bind_of_error right)⟩
  | ok value =>
    have kept : value.bind function? = none := by
      cases value with
      | none => rfl
      | some v => simpa [Expr.isFunction] using no_function v (ok_of_lookup left).1
    refine ⟨.ok (.call callee arguments token), ?_, .inl ?_⟩
    · rw [apply, bind_of_ok left, kept]
      rfl
    · rw [apply, bind_of_ok right, kept]
      rfl

/-- A symbolic expression has the same value in two states in which its variables are looked up
alike and nothing that it calls is bound to a function. -/
theorem agree_symbolic {e : Expr} (h : IsSymbolic V F e)
    (looked : ∀ x, V x → s.environment.lookup x = t.environment.lookup x)
    (called : ∀ x, F x → s.environment.lookup x = t.environment.lookup x ∧
      ∀ v, s.environment.lookup x = .ok (some v) → v.isFunction = false) :
    Agree False (evaluateWith body room e) s (evaluateWith body room e) t := by
  -- lists are evaluated one element after the other, so they need no induction of their own
  have list : ∀ (room : Room) (es : List Expr),
      (∀ e ∈ es, Agree False (evaluateWith body room e) s (evaluateWith body room e) t) →
      Agree False (evaluateAllWith body room es) s (evaluateAllWith body room es) t :=
    fun room es all => by simpa using agree_evaluateAllWith id all
  induction h generalizing room with
  | number =>
    rw [evaluateWith]
    exact agree_nested fun room _ => agree_pure _
  | var h =>
    rw [evaluateWith]
    exact agree_nested fun room _ => (agree_lookup (looked _ h)).bind fun _ => agree_pure _
  | unary _ inner =>
    rw [evaluateWith]
    exact agree_nested fun room _ => inner.bind fun v => agree_signed _ v _
  | binary _ _ left right =>
    rw [evaluateWith]
    exact agree_nested fun room _ => left.bind fun v => right.bind fun w => agree_operation _ v w _
  | group _ all =>
    rw [evaluateWith]
    exact agree_nested fun room _ => (list room _ fun e he => all e he).bind fun _ => agree_pure _
  | command _ all =>
    rw [evaluateWith]
    exact agree_nested fun room _ => (list room _ fun e he => all e he).bind fun _ => agree_pure _
  | block _ all =>
    rw [evaluateWith]
    exact agree_nested fun room _ => (list room _ fun e he => all e he).bind fun _ => agree_pure _
  | call h _ all =>
    rw [evaluateWith]
    obtain ⟨same, no_function⟩ := called _ h
    exact agree_nested fun room _ =>
      (list room _ fun e he => all e he).bind fun _ => agree_apply_uncalled same no_function

/-! ## Calls of closures -/

/-- What a partial application gives is a closure, with the fresh names from the counter on. -/
theorem isCurried_of_curry {f : Function} {arguments : List Expr} {token : Option Token} {e : Expr}
    (h : curry room f arguments token s = (.ok e, t)) :
    IsCurried s.anonymous f arguments token e := by
  have related : AreAt s.anonymous s.environment s.environment s s := ⟨rfl, rfl, rfl, le_rfl⟩
  obtain ⟨a, _, _, left, -, curried, -⟩ | ⟨_, _, _, left, -⟩ :=
    isolated_curry f arguments token s s related
  · cases h.symm.trans left
    exact curried
  · cases h.symm.trans left

/-- A parameter of what is left either occurs in no argument, or has a fresh name. -/
theorem IsRenaming.of_mem {n : Nat} {arguments parameters : List Expr}
    {remaining : List (Expr × Option Expr)} (h : IsRenaming n arguments parameters remaining)
    {q : Expr} (mem : q ∈ renamedParameters remaining) :
    (q ∈ parameters ∧ q.occursInAny arguments = .ok false) ∨
      ∃ i token, n ≤ i ∧ q = anonymousName i token := by
  obtain ⟨⟨p, r⟩, hr, rfl⟩ := List.mem_map.1 mem
  have kept := h.2 _ hr
  cases r with
  | none => exact .inl ⟨h.1 ▸ List.mem_map.2 ⟨_, hr, rfl⟩, kept⟩
  | some name => exact .inr kept

/-- Bindings of plain names can be made in a new scope, which then binds these names only. -/
theorem exists_setAll_nil {bindings : Scope Expr} (plain : ∀ b ∈ bindings, b.1.name?.isSome) :
    ∃ scope : Scope Expr, (∀ b ∈ scope, b ∈ bindings) ∧
      (∀ b ∈ bindings, ∀ name ∈ b.1.name?, (scope.named name).isSome) ∧
      ∀ env : Environment Expr, env.push.setAll bindings = .ok (env.inner scope) := by
  obtain ⟨_, made, _⟩ := (Environment.empty.inner []).setAll_names bindings plain
  rw [setAll_inner] at made
  obtain ⟨scope, made, _⟩ := TexAlgebra.ok_of_bind made
  refine ⟨scope, fun b hb => ?_, fun b hb name named => ?_, fun env => ?_⟩
  · exact (Scope.mem_of_setAll made hb).resolve_left List.not_mem_nil
  · exact Scope.isSome_named_of_setAll made (.inr ⟨b, hb, named⟩)
  · rw [push_eq_inner, setAll_inner, made]
    rfl

/-- Whether what is called has no function as its value, in neither of two environments, and no name
that is fresh from `n` on. -/
structure IsUncalled (n : Nat) (env env' : Environment Expr) (callee : Expr) : Prop where
  same : env.lookup callee = env'.lookup callee
  no_function : ∀ v, env.lookup callee = .ok (some v) → v.isFunction = false
  old : ∀ i, n ≤ i → callee.name? ≠ some ("anon" ++ i.repr)

/-- Under a scope that binds the parameters of a closure, its body is symbolic: its variables are
looked up alike on top of two environments in which those of the arguments are, and nothing that it
calls is bound to a function. -/
theorem isSymbolic_closure {n : Nat} {f : Function} {arguments : List Expr}
    {remaining : List (Expr × Option Expr)} {name : Expr} {token : Option Token}
    {env env' : Environment Expr} {scope : Scope Expr}
    (renamed : IsRenaming n arguments (f.parameters.drop arguments.length) remaining)
    (plain : ∀ p ∈ f.parameters, p.name?.isSome)
    (composed : IsComposed (f.parameters.filterMap name?) f.body)
    (symbolic : ∀ a ∈ arguments,
      IsSymbolic (fun x => env.lookup x = env'.lookup x) (IsUncalled n env env') a)
    (only : ∀ b ∈ scope, b.1 ∈ renamedParameters remaining)
    (bound : ∀ q ∈ renamedParameters remaining, ∀ name ∈ q.name?, (scope.named name).isSome) :
    IsSymbolic (fun x => (env.inner scope).lookup x = (env'.inner scope).lookup x)
      (fun x => (env.inner scope).lookup x = (env'.inner scope).lookup x ∧
        ∀ v, (env.inner scope).lookup x = .ok (some v) → v.isFunction = false)
      (closure f arguments remaining name token).body := by
  have plain_parameters : ∀ q ∈ renamedParameters remaining, q.name?.isSome := by
    intro q hq
    obtain ⟨mem, -⟩ | ⟨i, t, -, rfl⟩ := renamed.of_mem hq
    · exact plain q (List.mem_of_mem_drop mem)
    · rfl
  have parameter : ∀ q ∈ renamedParameters remaining, ∀ m ∈ q.name?, ∀ t : Option Token,
      (env.inner scope).lookup (.var m [] t) = (env'.inner scope).lookup (.var m [] t) := by
    intro q hq m hm t
    obtain ⟨v, hv⟩ := Option.isSome_iff_exists.1 (bound q hq m hm)
    rw [lookup_inner, lookup_inner, Scope.lookup_name, hv]
    rfl
  have argument : ∀ a ∈ arguments, IsSymbolic
      (fun x => (env.inner scope).lookup x = (env'.inner scope).lookup x)
      (fun x => (env.inner scope).lookup x = (env'.inner scope).lookup x ∧
        ∀ v, (env.inner scope).lookup x = .ok (some v) → v.isFunction = false) a := by
    intro a ha
    have avoids := (symbolic a ha).avoids
      (Q := fun p => p ∈ f.parameters ∧ p.occursInAny arguments = .ok false)
      (fun p hp => plain p hp.1) fun p hp => occursInAny_eq_false hp.2 a ha
    refine avoids.mono (fun x same => ?_) fun x ⟨uncalled, apart⟩ => ?_
    · rw [lookup_inner, lookup_inner, same]
    · -- no parameter has the name of what an argument calls
      have unbound : scope.lookup x = .ok none := by
        rw [Scope.lookup_of_plain fun b hb => plain_parameters _ (only b hb)]
        refine congrArg Except.ok (Option.bind_eq_none_iff.2 fun m hm => ?_)
        by_contra found
        obtain ⟨b, hb, named⟩ := Scope.isSome_named.1 (Option.isSome_iff_ne_none.2 found)
        obtain ⟨mem, absent⟩ | ⟨i, t, le, fresh⟩ := renamed.of_mem (only b hb)
        · exact apart b.1 ⟨List.mem_of_mem_drop mem, absent⟩ (hm.trans named.symm)
        · rw [fresh] at named
          exact uncalled.old i le (hm.trans named.symm)
      rw [lookup_inner, lookup_inner, unbound]
      exact ⟨uncalled.same, uncalled.no_function⟩
  refine composed.substitute fun m hm t => ?_
  cases found : Scope.latest m (f.parameters.zip arguments ++ renamings remaining) with
  | none =>
    obtain ⟨q, hq, named⟩ := List.mem_filterMap.1 ((renamed.latest_of_mem hm).resolve_right
      fun replaced => replaced found)
    exact .var (parameter q hq m named t)
  | some v =>
    obtain ⟨x, mem, -⟩ := Scope.exists_of_latest found
    rcases List.mem_append.1 mem with given | fresh
    · exact argument v (List.of_mem_zip given).2
    · obtain ⟨⟨p, q⟩, hr, eq⟩ := List.mem_filterMap.1 fresh
      obtain ⟨w, rfl, ⟨⟩⟩ := Option.map_eq_some_iff.1 eq
      obtain ⟨i, t, -, rfl⟩ := renamed.2 _ hr
      exact .var (parameter _ (List.mem_map.2 ⟨_, hr, rfl⟩) _ rfl _)

/-- A call of a closure with the arguments that are left has the same result, be it a value or a
failure, in two states in which the variables of the supplied arguments are looked up alike. What
the supplied arguments call is bound to no function, and they define nothing. -/
theorem apply_curried {f c : Function} {arguments rest : List Expr} {s₀ s₁ t₁ t₂ : Evaluator}
    {g₁ g₂ callee₁ callee₂ : Expr} {room' : Room} (depth : Nat) (room : Room)
    (token token₁ token₂ : Option Token)
    (curried : curry room' f arguments token s₀ = (.ok c.toExpr, s₁))
    (plain : ∀ p ∈ f.parameters, p.name?.isSome)
    (composed : IsComposed (f.parameters.filterMap name?) f.body)
    (symbolic : ∀ a ∈ arguments,
      IsSymbolic (fun x => t₁.environment.lookup x = t₂.environment.lookup x)
        (IsUncalled s₀.anonymous t₁.environment t₂.environment) a)
    (found₁ : t₁.environment.lookup callee₁ = .ok (some (c.renamed g₁).toExpr))
    (found₂ : t₂.environment.lookup callee₂ = .ok (some (c.renamed g₂).toExpr))
    (count : rest.length = c.arity) :
    (apply (evaluateWithin depth) room callee₁ rest token₁ t₁).1 =
      (apply (evaluateWithin depth) room callee₂ rest token₂ t₂).1 := by
  obtain ⟨remaining, name, renamed, eq⟩ := isCurried_of_curry curried
  obtain rfl : c = closure f arguments remaining name token :=
    Option.some.inj (congrArg function? eq)
  -- both calls bind the same parameters to the same values, so they open the same scope
  obtain ⟨scope, only, bound, made⟩ := @exists_setAll_nil
    ((renamedParameters remaining).zip rest) fun b hb => by
      obtain ⟨mem, -⟩ | ⟨i, t, -, eq⟩ := renamed.of_mem (List.of_mem_zip hb).1
      · exact plain _ (List.mem_of_mem_drop mem)
      · rw [eq]
        rfl
  have body := @isSymbolic_closure _ _ _ _ name token t₁.environment t₂.environment scope renamed
    plain composed symbolic (fun b hb => (List.of_mem_zip (only b hb)).1) fun q hq m named => by
      obtain ⟨i, hi, rfl⟩ := List.mem_iff_getElem.1 hq
      have hi' : i < rest.length := count ▸ hi
      refine bound (_, rest[i]) (List.mem_iff_getElem.2 ⟨i, ?_, List.getElem_zip⟩) m named
      rw [List.length_zip]
      omega
  rw [apply_of_full found₁ count, apply_of_full found₂ count]
  refine (inScope_of_setAll (made _)).trans (Eq.trans ?_ (inScope_of_setAll (made _)).symm)
  cases depth with
  | zero => rfl
  | succ depth =>
    obtain ⟨r, left, right | ⟨none, -⟩⟩ := @agree_symbolic _ _
      { t₁ with environment := t₁.environment.inner scope }
      { t₂ with environment := t₂.environment.inner scope } (evaluateWithin depth) room _ body
      (fun _ same => same) fun _ called => called
    · exact (congrArg Prod.fst left).trans (congrArg Prod.fst right).symm
    · exact none.elim

/-- What is left of the function of `x` and `y` with body `x + y` when the unbound name `z` is
supplied gives `z + 1` for `1`, whether `w` is bound or not. -/
theorem apply_curried_sum :
    let x : Expr := .var "x" [] none
    let y : Expr := .var "y" [] none
    let z : Expr := .var "z" [] none
    let w : Expr := .var "w" [] none
    let g : Expr := .var "g" [] none
    let one : Expr := .number "1" none
    let left : Expr :=
      .function .curried g [y] none (.binary .plus z y none) [(x, z)] none
    (apply (evaluateWithin 1) .unbounded g [one] none ⟨⟨[(g, left)], []⟩, 1⟩).1 =
        (apply (evaluateWithin 1) .unbounded g [one] none
          ⟨⟨[(g, left), (w, .number "3" none)], []⟩, 1⟩).1 ∧
      (apply (evaluateWithin 1) .unbounded g [one] none ⟨⟨[(g, left)], []⟩, 1⟩).1 =
        .ok (.binary .plus z one none) := by
  intro x y z w g one left
  have absent : y.occursInAny [z] = .ok false := by
    simp [y, z, occursInAny, occursIn, matchesWith_name, name?, either]
    rfl
  have fresh : freshParameters [z] [y] ⟨⟨[], []⟩, 1⟩ = (.ok [(y, none)], ⟨⟨[], []⟩, 1⟩) := by
    rw [freshParameters, absent]
    rfl
  have curried : curry .unbounded
      ⟨.defined, .var "f" [] none, [x, y], none, .binary .plus x y none, [], none⟩ [z] none
      ⟨⟨[], []⟩, 0⟩ = (.ok (Function.toExpr ⟨.curried, anonymousName 0 none, [y], none,
        .binary .plus z y none, [(x, z)], none⟩), ⟨⟨[], []⟩, 1⟩) := by
    refine (curry_of_fresh fresh).trans ?_
    rw [closure, substitute_binary, substitute_name, substitute_name]
    rfl
  have found : ∀ others : Scope Expr, others = [] ∨ others = [(w, .number "3" none)] →
      (⟨(g, left) :: others, []⟩ : Environment Expr).lookup g = .ok (some left) := by
    rintro _ (rfl | rfl) <;> rw [Environment.lookup_name] <;> rfl
  have unbound : ∀ others : Scope Expr, others = [] ∨ others = [(w, .number "3" none)] →
      (⟨(g, left) :: others, []⟩ : Environment Expr).lookup z = .ok none := by
    rintro _ (rfl | rfl) <;> rw [Environment.lookup_name] <;> rfl
  refine ⟨?_, (apply_operation none (found _ (.inl rfl))).trans rfl⟩
  exact apply_curried 1 .unbounded none none none curried
    (List.forall_mem_cons.2 ⟨rfl, List.forall_mem_singleton.2 rfl⟩)
    (.binary (.var List.mem_cons_self) (.var (List.mem_cons_of_mem _ (List.mem_singleton_self _))))
    (List.forall_mem_singleton.2 (.var ((unbound _ (.inl rfl)).trans (unbound _ (.inr rfl)).symm)))
    (found _ (.inl rfl)) (found _ (.inr rfl)) rfl

/-- The same closure gives `4` for `1` where `z` is bound to `3`. -/
theorem apply_closure_changed :
    let x : Expr := .var "x" [] none
    let y : Expr := .var "y" [] none
    let z : Expr := .var "z" [] none
    let g : Expr := .var "g" [] none
    let one : Expr := .number "1" none
    let left : Expr := .function .curried g [y] none (.binary .plus z y none) [(x, z)] none
    (apply (evaluateWithin 1) .unbounded g [one] none ⟨⟨[(g, left)], []⟩, 1⟩).1 =
        .ok (.binary .plus z one none) ∧
      (apply (evaluateWithin 1) .unbounded g [one] none
          ⟨⟨[(g, left), (z, .number "3" none)], []⟩, 1⟩).1 =
        .ok (.number "4" none) := by
  intro x y z g one left
  have found : ∀ others : Scope Expr, others = [] ∨ others = [(z, .number "3" none)] →
      (⟨(g, left) :: others, []⟩ : Environment Expr).lookup g = .ok (some left) := by
    rintro _ (rfl | rfl) <;> rw [Environment.lookup_name] <;> rfl
  exact ⟨(apply_operation none (found _ (.inl rfl))).trans rfl,
    (apply_operation none (found _ (.inr rfl))).trans rfl⟩

end Evaluation

end TexAlgebra
