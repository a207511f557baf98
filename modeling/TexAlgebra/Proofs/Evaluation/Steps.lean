import TexAlgebra.Proofs.Evaluation.Currying
/-!
# Calls in steps

Supplying the arguments of a function in several steps gives what a call with all of them gives
(`Evaluation.applyInTurn_eq_apply`), as long as there is room for what the steps write out. This is
for functions whose body is a formula, and arguments that are settled formulas of which no name is
bound. The numbers of the body and of the supplied arguments have to be short enough to be written
out: `Evaluation.applyInTurn_ne_apply_of_long_numeral` is a call in steps that fails because of one
that is not.
-/

namespace TexAlgebra.Evaluation

open Expr

variable {n lo hi : Nat} {arguments : List Expr} {remaining : List (Expr × Option Expr)}
  {s : Evaluator} {f : Function} {token : Option Token} {callee : Expr} {room : Room}

/-- A partial application whose result is bound to a variable. -/
structure Supply where
  arguments : List Expr
  target : Expr
  token : Option Token

/-- Binds what `callee` is when some arguments are supplied, and yields the bound function. -/
def supply (body : Room → Expr → Eval Expr) (room : Room) (callee : Expr) (step : Supply) :
    Eval Expr := do
  let left ← apply body room callee step.arguments step.token
  define room step.target left step.token

/-- The value of a call that is made in steps: partial applications one after the other, each of
what the one before it was bound to, and then a call with the arguments that are left. -/
def applyInTurn (body : Room → Expr → Eval Expr) (room : Room) (last : List Expr)
    (token : Option Token) : Expr → List Supply → Eval Expr
  | callee, [] => apply body room callee last token
  | callee, step :: steps => do
    let _ ← supply body room callee step
    applyInTurn body room last token step.target steps

/-- Whether a variable is a plain name that was used before and occurs in none of several
expressions. -/
def IsApart (n : Nat) (es : List Expr) (x : Expr) : Prop :=
  ∃ name, x.name? = some name ∧ IsUsed n name ∧ ∀ e ∈ es, name ∉ e.names

/-- A partial application succeeds if there is enough room, and its target is bound to the closure.
Nothing else that is bound to a plain name has changed. -/
theorem supply_spec (body : Room → Expr → Eval Expr) (room : Room) {step : Supply}
    (found : s.environment.lookup callee = .ok (some f.toExpr))
    (formula : IsFormulaFunction s.anonymous f)
    (supplied : ∀ a ∈ step.arguments, IsSupplied s a)
    (target : IsApart s.anonymous (f.body :: step.arguments) step.target)
    (fewer : step.arguments.length < f.arity) :
    ∃ remaining hi env',
      (supply body room callee step s =
          (.ok (closure f step.arguments remaining step.target step.token).toExpr, ⟨env', hi⟩) ∨
        room ≠ .unbounded ∧ (supply body room callee step s).1 = .error (.obstacle .tooDeep)) ∧
      Renaming s.anonymous step.arguments (s.anonymous + 1) remaining hi ∧
      remaining.map (·.1) = f.parameters.drop step.arguments.length ∧
      env'.lookup step.target =
        .ok (some (closure f step.arguments remaining step.target step.token).toExpr) ∧
      ∀ m, step.target.name? ≠ some m → env'.named m = s.environment.named m := by
  obtain ⟨remaining, hi, curried, renamed, remains⟩ :=
    curry_spec room step.token formula fun a ha => (supplied a ha).formula
  obtain ⟨g, named, -, -⟩ := target
  obtain ⟨t, target⟩ := name?_eq_some.1 named
  let left := closure f step.arguments remaining step.target step.token
  obtain ⟨env', changed, bound⟩ := s.environment.set_name g t left.toExpr
  refine ⟨remaining, hi, env', ?_, renamed, remains, ?_, fun m other => ?_⟩
  · have defined : bind step.target left.toExpr { s with anonymous := hi } =
        (.ok (), ⟨env', hi⟩) := by
      rw [target]
      exact update_of_ok changed
    rcases curried with curried | ⟨few, curried⟩
    · left
      rw [supply, bind_of_ok ((apply_of_fewer found fewer).trans curried)]
      exact bind_of_ok defined
    · right
      rw [supply, bind_of_error ((apply_of_fewer found fewer).trans curried)]
      exact ⟨few, rfl⟩
  · rw [target, Environment.lookup_name, bound, if_pos rfl, ← target]
  · rw [bound, if_neg]
    rintro rfl
    exact other named

/-- A closure takes as many arguments as were missing. -/
theorem closure_arity (remains : remaining.map (·.1) = f.parameters.drop arguments.length)
    (fewer : arguments.length < f.arity) (name : Expr) (token : Option Token) :
    (closure f arguments remaining name token).arity + arguments.length = f.arity := by
  have := congrArg List.length remains
  rw [List.length_map, List.length_drop] at this
  rw [Function.arity, closure, renamedParameters, List.length_map, this]
  exact Nat.sub_add_cancel fewer.le

/-- A name that was used before occurs in what is left of a body only if it occurs in the body or in
one of the arguments. -/
theorem Renaming.exists_of_mem_names (h : Renaming n arguments lo remaining hi) (le : n ≤ lo)
    (formula : IsFormula n f.body) {name : Expr} {m : String}
    (mem : m ∈ (closure f arguments remaining name token).body.names) (used : IsUsed n m) :
    ∃ e ∈ f.body :: arguments, m ∈ e.names := by
  obtain ⟨t, mem⟩ := mem_names.1 mem
  obtain ⟨k, hk, mem⟩ := formula.mem_leaves_substitute.1 mem
  obtain ⟨text, u, rfl⟩ | ⟨k, u, rfl, -⟩ := formula.of_mem_leaves hk
  · rw [substitute_number] at mem
    cases List.mem_singleton.1 mem
  rw [substitute_name, Scope.latest_append] at mem
  cases found : (Scope.latest k (renamings remaining)).or
      (Scope.latest k (f.parameters.zip arguments)) with
  | none =>
    rw [found] at mem
    cases List.mem_singleton.1 mem
    exact ⟨f.body, List.mem_cons_self, mem_names.2 ⟨_, hk⟩⟩
  | some e =>
    rw [found] at mem
    rcases Option.or_eq_some_iff.1 found with fresh | ⟨-, given⟩
    · obtain ⟨q, hq, -⟩ := Scope.exists_of_latest fresh
      obtain ⟨i, u, rfl, ge, -⟩ := h.of_mem_renamings hq
      cases List.mem_singleton.1 mem
      exact (ne_anon_of_isUsed used (le.trans ge) rfl).elim
    · obtain ⟨q, hq, -⟩ := Scope.exists_of_latest given
      exact ⟨e, List.mem_cons_of_mem _ (List.of_mem_zip hq).2, mem_names.2 ⟨t, mem⟩⟩

/-- Calling what a partial application left gives what a call with all arguments gives, if there is
enough room. -/
theorem apply_closure {env' : Environment Expr} {g : String} {name target : Expr} (depth : Nat)
    (room : Room)
    (found : s.environment.lookup callee = .ok (some f.toExpr))
    (formula : IsFormulaFunction s.anonymous f) (supplied : ∀ a ∈ arguments, IsSupplied s a)
    (renamed : Renaming s.anonymous arguments lo remaining hi) (le : s.anonymous ≤ lo)
    (remains : remaining.map (·.1) = f.parameters.drop arguments.length)
    (fewer : arguments.length < f.arity)
    (bound : env'.lookup target = .ok (some (closure f arguments remaining name token).toExpr))
    (absent : g ∉ f.body.names ∧ ∀ a ∈ arguments, g ∉ a.names)
    (frame : ∀ m, m ≠ g → env'.named m = s.environment.named m) {rest : List Expr}
    (count : rest.length = remaining.length) (token₁ token₂ : Option Token) :
    (apply (evaluateWithin depth) room target rest token₁ ⟨env', hi⟩).1 =
        (apply (evaluateWithin depth) room callee (arguments ++ rest) token₂ s).1 ∨
      room ≠ .unbounded ∧ (apply (evaluateWithin depth) room target rest token₁ ⟨env', hi⟩).1 =
        .error (.obstacle .tooDeep) := by
  have arity := closure_arity remains fewer name token
  have params : (closure f arguments remaining name token).arity = remaining.length := by
    rw [Function.arity, closure, renamedParameters, List.length_map]
  have isFormulaFunction := renamed.isFormula_parameters le
  obtain ⟨env₁, direct, found₁⟩ := s.environment.push.setAll_names
    (f.parameters.zip (arguments ++ rest)) fun b hb => by
      obtain ⟨m, named, -⟩ := formula.parameters b.1 (List.of_mem_zip hb).1
      rw [named]
      rfl
  obtain ⟨env₂, curried, found₂⟩ := env'.push.setAll_names
    ((renamedParameters remaining).zip rest) fun b hb => by
      obtain ⟨m, named, -⟩ := isFormulaFunction b.1 (List.of_mem_zip hb).1
      rw [named]
      rfl
  let left := closure f arguments remaining name token
  have called : (inScope room (left.parameters.zip rest) (evaluateWithin depth room left.body)
      ⟨env', hi⟩).1 = (evaluateWithin depth room left.body ⟨env₂, hi⟩).1 :=
    inScope_of_setAll curried
  rw [apply_of_full found (by rw [List.length_append]; omega), inScope_of_setAll direct]
  rw [@apply_of_full _ ⟨env', hi⟩ _ _ _ _ _ bound (by omega)]
  rw [called]
  cases depth with
  -- neither call has a level left for its body
  | zero => exact .inl rfl
  | succ depth =>
    -- both calls evaluate a body in a scope of their own, and the bodies agree there
    have agree : Agree (room ≠ .unbounded) (evaluateWith (evaluateWithin depth) room f.body)
        ⟨env₁, s.anonymous⟩
        (evaluateWith (evaluateWithin depth) room (closure f arguments remaining name token).body)
        ⟨env₂, hi⟩ :=
      agree_closure name token formula
        (fun a ha => ⟨(supplied a ha).formula, (supplied a ha).settled,
          fun _ => (supplied a ha).named_eq_none⟩)
        renamed le (by rw [remains, List.take_append_drop]) (List.length_take_of_le fewer.le) count
        absent frame found₁ found₂
    obtain ⟨r, left, right⟩ := agree
    refine right.imp (fun right => ?_) fun right => ⟨right.1, congrArg Prod.fst right.2⟩
    exact (congrArg Prod.fst right).trans (congrArg Prod.fst left).symm

/-- An argument stays supplied where none of its names is bound anew. -/
theorem IsSupplied.of_frame {s' : Evaluator} {a target : Expr} (h : IsSupplied s a)
    (le : s.anonymous ≤ s'.anonymous) (apart : ∀ m ∈ a.names, target.name? ≠ some m)
    (frame : ∀ m, target.name? ≠ some m → s'.environment.named m = s.environment.named m) :
    IsSupplied s' a where
  formula := h.formula.mono le
  settled := h.settled
  unbound m hm := by
    rw [Environment.lookup_name, frame m (apart m hm), h.named_eq_none hm]

/-- Supplying the arguments of a function in steps gives the result of a call with all of them: the
same expression or the same failure. Where there is only room for so many levels, there may also be
too little of it for the steps, which write out what is left of the function. -/
theorem applyInTurn_eq_apply {steps : List Supply} {last : List Expr} (depth : Nat)
    (room : Room) (token₁ token₂ : Option Token)
    (found : s.environment.lookup callee = .ok (some f.toExpr))
    (formula : IsFormulaFunction s.anonymous f)
    (supplied : ∀ step ∈ steps, ∀ a ∈ step.arguments, IsSupplied s a)
    (targets : ∀ step ∈ steps,
      IsApart s.anonymous (f.body :: steps.flatMap (·.arguments)) step.target)
    (count : (steps.flatMap (·.arguments) ++ last).length = f.arity) (some_left : last ≠ []) :
    (applyInTurn (evaluateWithin depth) room last token₁ callee steps s).1 =
        (apply (evaluateWithin depth) room callee (steps.flatMap (·.arguments) ++ last) token₂
          s).1 ∨
      room ≠ .unbounded ∧ (applyInTurn (evaluateWithin depth) room last token₁ callee steps s).1 =
        .error (.obstacle .tooDeep) := by
  induction steps generalizing s f callee with
  | nil =>
    rw [List.flatMap_nil, List.nil_append] at count ⊢
    rw [applyInTurn, apply_of_full found count, apply_of_full found count]
    exact .inl rfl
  | cons step steps ih =>
    rw [List.flatMap_cons, List.append_assoc] at count ⊢
    have positive := List.length_pos_iff.2 some_left
    have fewer : step.arguments.length < f.arity := by
      simp only [List.length_append] at count
      omega
    have supplied₁ := supplied step List.mem_cons_self
    obtain ⟨g, named, used, absent⟩ := targets step List.mem_cons_self
    have absent_body := absent _ List.mem_cons_self
    have absent_here : ∀ a ∈ step.arguments, g ∉ a.names := fun a ha =>
      absent a (List.mem_cons_of_mem _ (List.mem_append_left _ ha))
    have absent_later : ∀ later ∈ steps, ∀ a ∈ later.arguments, g ∉ a.names := fun later hl a ha =>
      absent a (List.mem_cons_of_mem _
        (List.mem_append_right _ (List.mem_flatMap.2 ⟨later, hl, ha⟩)))
    -- the first step leaves a closure under a name that nothing else mentions
    obtain ⟨remaining, hi, env', supply, renamed, remains, bound, frame⟩ :=
      supply_spec (evaluateWithin depth) room found formula supplied₁
        ⟨g, named, used, List.forall_mem_cons.2 ⟨absent_body, absent_here⟩⟩ fewer
    have le : s.anonymous ≤ hi := (Nat.le_succ _).trans renamed.le
    have arity := closure_arity remains fewer step.target step.token
    have frame' : ∀ m, m ≠ g → env'.named m = s.environment.named m := fun m other =>
      frame m fun eq => other (Option.some.inj (eq.symm.trans named))
    rw [applyInTurn]
    -- the step fails only where there is too little room to write the closure out
    rcases supply with supply | ⟨few, failed⟩
    swap
    · rcases result : Evaluation.supply (evaluateWithin depth) room callee step s with ⟨_, t⟩
      rw [result] at failed
      subst failed
      rw [bind_of_error result]
      exact .inr ⟨few, rfl⟩
    rw [bind_of_ok supply]
    -- a call of the closure with the other arguments is a call with all of them
    have full : (apply (evaluateWithin depth) room step.target
        (steps.flatMap (·.arguments) ++ last) token₂ ⟨env', hi⟩).1 = _ ∨ _ :=
      apply_closure depth room found formula supplied₁ renamed (Nat.le_succ _) remains fewer bound
        ⟨absent_body, absent_here⟩ frame' (by
          have length : remaining.length = f.arity - step.arguments.length := by
            rw [← List.length_map, remains, List.length_drop]
            rfl
          rw [length, ← count]
          simp) token₂ token₂
    refine (ih bound ?_ ?_ ?_ ?_).elim (fun same => same ▸ full) .inr
    · refine renamed.isFormulaFunction (Nat.le_succ _) formula
        (fun a ha => (supplied₁ a ha).formula) remains ?_
      obtain ⟨text, written⟩ := exists_tex_of_plain .display ⟨g, named, used⟩
      exact ⟨text, written⟩
    · intro later hl a ha
      have apart : ∀ m ∈ a.names, step.target.name? ≠ some m := by
        rintro m hm eq
        cases eq.symm.trans named
        exact absent_later later hl a ha hm
      exact (supplied later (List.mem_cons_of_mem _ hl) a ha).of_frame le apart frame
    · intro later hl
      obtain ⟨m, named, used, absent⟩ := targets later (List.mem_cons_of_mem _ hl)
      refine ⟨m, named, used.mono le, fun e he => ?_⟩
      rcases List.mem_cons.1 he with rfl | he
      · intro mem
        obtain ⟨e, he, mem⟩ := renamed.exists_of_mem_names (Nat.le_succ _) formula.body mem used
        rcases List.mem_cons.1 he with rfl | he
        · exact absent _ List.mem_cons_self mem
        · exact absent e (List.mem_cons_of_mem _ (List.mem_append_left _ he)) mem
      · exact absent e (List.mem_cons_of_mem _ (List.mem_append_right _ he))
    · simp only [List.length_append] at count ⊢
      omega

/-- Where `f` is bound to the function of `x` and `y` with body `x - y`, the name `y` can be
supplied first, which renames the parameter, and then `2`. The result is `y - 2`. -/
theorem applyInTurn_eq_apply_difference :
    let x : Expr := .var "x" [] none
    let y : Expr := .var "y" [] none
    let f : Expr := .var "f" [] none
    let g : Expr := .var "g" [] none
    let two : Expr := .number "2" none
    let difference : Function := ⟨.defined, f, [x, y], none, .binary .minus x y none, [], none⟩
    let s : Evaluator := ⟨⟨[(f, difference.toExpr)], []⟩, 0⟩
    (applyInTurn (evaluateWithin 1) .unbounded [two] none f [⟨[y], g, none⟩] s).1 =
      .ok (.binary .minus y two none) := by
  intro x y f g two difference s
  have letter : ∀ c, Lexer.isLetter c = true → IsUsed 0 (String.ofList [c]) := by
    intro c hc
    refine .inl ⟨by simp, by simp [hc]⟩
  have used_x : IsUsed 0 "x" := letter 'x' rfl
  have used_y : IsUsed 0 "y" := letter 'y' rfl
  have used_g : IsUsed 0 "g" := letter 'g' rfl
  have formula : IsFormulaFunction 0 difference :=
    { parameters := List.forall_mem_cons.2 ⟨⟨_, rfl, used_x⟩,
        List.forall_mem_cons.2 ⟨⟨_, rfl, used_y⟩, fun _ h => (List.not_mem_nil h).elim⟩⟩
      distinct := by decide
      body := .binary (.var used_x) (.var used_y)
      name := ⟨"f", rfl⟩ }
  have supplied : IsSupplied s y :=
    { formula := .var used_y
      settled := .var
      unbound := List.forall_mem_singleton.2 (by rw [Environment.lookup_name]; rfl) }
  have apart : IsApart 0 [difference.body, y] g := ⟨"g", rfl, used_g, by decide⟩
  have agree : (applyInTurn (evaluateWithin 1) .unbounded [two] none f [⟨[y], g, none⟩] s).1 =
      (apply (evaluateWithin 1) .unbounded f [y, two] none s).1 :=
    (applyInTurn_eq_apply 1 .unbounded none none rfl formula
      (List.forall_mem_singleton.2 (List.forall_mem_singleton.2 supplied))
      (List.forall_mem_singleton.2 apart) rfl (List.cons_ne_nil _ _)).resolve_right
      fun limited => limited.1 rfl
  have pushed : s.environment.push.setAll [(x, y), (y, two)] =
      .ok { s.environment with scopes := [[(x, y), (y, two)]] } := by
    simp [x, y, s, Environment.push, Environment.setAll, Environment.set, Scope.set, Scope.erase,
      matchesWith_name, name?]
  have direct := @apply_of_full [y, two] s difference none .unbounded (evaluateWithin 1) f rfl rfl
  exact agree.trans ((congrArg Prod.fst direct).trans (inScope_of_setAll pushed))

/-- A numeral with more digits than a number is written with stands in the way of a call in steps,
though not of a call with all arguments. Where `f` is bound to the function with body
`1.0000000000000000000000000001 - x y`, the call `f(1, 1)` has a value. What is left of the function
after `f(1)` is sound as well, but it is written out as soon as it is made, and that fails, so that
`f(1)` has no value and the call in steps is never completed. -/
theorem applyInTurn_ne_apply_of_long_numeral :
    let x : Expr := .var "x" [] none
    let y : Expr := .var "y" [] none
    let f : Expr := .var "f" [] none
    let g : Expr := .var "g" [] none
    let one : Expr := .number "1" none
    let long : Expr := .number "1.0000000000000000000000000001" none
    let body : Expr := .binary .minus long (.binary .juxtaposed x y none) none
    let s : Evaluator := ⟨⟨[(f, .function .defined f [x, y] none body [] none)], []⟩, 0⟩
    (apply (evaluateWithin 1) .unbounded f [one, one] none s).1 =
        .ok (.number "0.0000000000000000000000000001" none) ∧
      (applyInTurn (evaluateWithin 1) .unbounded [one] none f [⟨[one], g, none⟩] s).1 =
        .error (.obstacle (.arithmetic
          (.writing ⟨false, 10000000000000000000000000001, -28⟩ 28) .invalid)) := by
  intro x y f g one long body s
  let unwritten : Failure := .obstacle (.arithmetic
    (.writing ⟨false, 10000000000000000000000000001, -28⟩ 28) .invalid)
  let function : Function := ⟨.defined, f, [x, y], none, body, [], none⟩
  have pushed : s.environment.push.setAll [(x, one), (y, one)] =
      .ok { s.environment with scopes := [[(x, one), (y, one)]] } := by
    simp [x, y, s, Environment.push, Environment.setAll, Environment.set, Scope.set, Scope.erase,
      matchesWith_name, name?]
  have full := @apply_of_full [one, one] s function none .unbounded (evaluateWithin 1) f rfl rfl
  have fewer :=
    @apply_of_fewer [one] s function none .unbounded (evaluateWithin 1) f rfl (by decide)
  have absent : y.occursInAny [one] = .ok false := by
    simp [y, one, occursInAny, occursIn, matchesWith_name, name?, either]
    rfl
  have fresh : freshParameters [one] [y] { s with anonymous := 1 } =
      (.ok [(y, none)], { s with anonymous := 1 }) := by
    rw [freshParameters, absent]
    rfl
  have unwritable : requireText .unbounded .oneLine
        (closure function [one] [(y, none)] (anonymousName 0 none) none).toExpr
        { s with anonymous := 1 } = (.error unwritten, { s with anonymous := 1 }) := by
    rw [closure, substitute_binary, substitute_number]
    rfl
  refine ⟨(congrArg Prod.fst full).trans ((inScope_of_setAll pushed).trans rfl), ?_⟩
  have head : requireText .unbounded .display function.prototype { s with anonymous := 1 } =
    (.ok (), { s with anonymous := 1 }) := rfl
  have failed : curry .unbounded function [one] none s =
      (.error unwritten, { s with anonymous := 1 }) := by
    rw [@curry_of_fresh _ _ s function none .unbounded _ fresh, bind_of_ok head]
    exact bind_of_error unwritable
  have supplied : supply (evaluateWithin 1) .unbounded f ⟨[one], g, none⟩ s =
      (.error unwritten, { s with anonymous := 1 }) := by
    rw [supply, bind_of_error (fewer.trans failed)]
  rw [applyInTurn, bind_of_error supplied]

end TexAlgebra.Evaluation
