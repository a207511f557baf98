import TexAlgebra.Proofs.Evaluation.Renaming
/-!
# Partial applications

A partial application puts its arguments into the body and renames the parameters that occur in
them. What is left is a closure (`Evaluation.curry_spec`). The values that were put in are evaluated
again when its body is, which changes nothing as long as none of their names is bound: the body of a
function has the same value when all its parameters are bound as what is left of it has when the
remaining ones are (`Evaluation.agree_closure`).

This is for functions whose body is a formula. Numbers have to be such that they can be written out,
because a partial application writes out its result, and there has to be room for it.
-/

namespace TexAlgebra.Evaluation

open Expr

variable {n lo hi : Nat} {arguments : List Expr} {remaining : List (Expr × Option Expr)}
  {s : Evaluator} {f : Function} {token : Option Token} {room : Room} {limited : Prop}

/-! ## One partial application -/

/-- Whether a function has distinct names as parameters and a formula as its body. Its own name has
to be such that it can be written out. -/
structure IsFormulaFunction (n : Nat) (f : Function) : Prop where
  parameters : ∀ p ∈ f.parameters, ∃ name, p.name? = some name ∧ IsUsed n name
  distinct : (f.parameters.map name?).Nodup
  body : IsFormula n f.body
  name : ∃ text, f.name.tex .display = .ok text

/-- Whether a value can be supplied to a partial application: a settled formula of which no name is
bound. -/
structure IsSupplied (s : Evaluator) (a : Expr) : Prop where
  formula : IsFormula s.anonymous a
  settled : a.IsSettled
  unbound : ∀ name ∈ a.names, s.environment.lookup (.var name [] none) = .ok none

/-- No name of a supplied argument is bound. -/
theorem IsSupplied.named_eq_none {s : Evaluator} {a : Expr} (h : IsSupplied s a) {m : String}
    (hm : m ∈ a.names) : s.environment.named m = none := by
  have unbound := h.unbound m hm
  rw [Environment.lookup_name] at unbound
  exact Except.ok.inj unbound

/-- The function that is left when `arguments` are supplied and the remaining parameters are renamed
as `remaining` says. -/
def closure (f : Function) (arguments : List Expr) (remaining : List (Expr × Option Expr))
    (name : Expr) (token : Option Token) : Function where
  form := .curried
  name := name
  parameters := renamedParameters remaining
  head := token
  body := f.body.substitute (f.parameters.zip arguments ++ renamings remaining)
  closed := f.closed ++ f.parameters.zip arguments
  token := token


/-- A name can be written out in any style. -/
theorem exists_tex_of_plain {x : Expr} (style : Style)
    (h : ∃ name, x.name? = some name ∧ IsUsed n name) :
    ∃ text, x.tex style = .ok text := by
  obtain ⟨name, plain, used⟩ := h
  obtain ⟨token, rfl⟩ := name?_eq_some.1 plain
  exact ((IsFormula.var used).exists_tex style).imp fun _ written => written.1

/-- What is left of a function with a formula as its body is again such a function. -/
theorem Renaming.isFormulaFunction (h : Renaming n arguments lo remaining hi) (le : n ≤ lo)
    (formula : IsFormulaFunction n f) (formulas : ∀ a ∈ arguments, IsFormula n a)
    (remains : remaining.map (·.1) = f.parameters.drop arguments.length) {name : Expr}
    (named : ∃ text, name.tex .display = .ok text) :
    IsFormulaFunction hi (closure f arguments remaining name token) where
  parameters := h.isFormula_parameters le
  distinct := by
    refine h.nodup le ?_
    have names : remaining.map (·.1.name?) = (remaining.map (·.1)).map name? := by
      rw [List.map_map]
      rfl
    rw [names, remains, List.map_drop]
    exact formula.distinct.sublist (List.drop_sublist _ _)
  body := by
    have le : n ≤ hi := le.trans h.le
    refine (formula.body.mono le).substitute fun b hb => ?_
    rcases List.mem_append.1 hb with hb | hb
    · exact (formulas _ (List.of_mem_zip hb).2).mono le
    · obtain ⟨i, t, eq, -, lt⟩ := h.of_mem_renamings hb
      rw [eq]
      exact .var (.inr ⟨i, lt, rfl⟩)
  name := named

/-- A partial application makes the closure and requires that it can be written out. -/
theorem curry_of_fresh {t : Evaluator}
    (fresh : freshParameters arguments (f.parameters.drop arguments.length)
      { s with anonymous := s.anonymous + 1 } = (.ok remaining, t)) :
    curry room f arguments token s =
      (do
        requireText room .display f.prototype
        requireText room .oneLine
          (closure f arguments remaining (anonymousName s.anonymous token) token).toExpr
        return (closure f arguments remaining (anonymousName s.anonymous token) token).toExpr :
        Eval Expr) t := by
  have name : freshName token s =
    (.ok (anonymousName s.anonymous token), { s with anonymous := s.anonymous + 1 }) := rfl
  rw [curry, bind_of_ok name, bind_of_ok fresh]
  rfl

/-- What has a text can be written out, unless room is limited and there is too little of it. -/
theorem agree_requireText {style : Style} {e : Expr} {t : Evaluator}
    (written : ∃ text, e.tex style = .ok text) (few : room ≠ .unbounded → limited) :
    Agree limited (pure ()) t (requireText room style e) t := by
  obtain ⟨text, written⟩ := written
  cases fits : room.holds e.height with
  | true => exact ⟨.ok (), rfl, .inl (requireText_of_ok fits written)⟩
  | false =>
    refine ⟨.ok (), rfl, .inr ⟨few ?_, ?_⟩⟩
    · rintro rfl
      cases fits
    · rw [requireText, Expr.texWithin, if_neg (by rw [fits]; exact Bool.false_ne_true)]
      rfl

/-- A partial application gives the closure with the remaining parameters renamed. -/
theorem curry_spec (room : Room) (token : Option Token) (formula : IsFormulaFunction s.anonymous f)
    (formulas : ∀ a ∈ arguments, IsFormula s.anonymous a) :
    ∃ remaining hi,
      (curry room f arguments token s =
          (.ok (closure f arguments remaining (anonymousName s.anonymous token) token).toExpr,
            { s with anonymous := hi }) ∨
        room ≠ .unbounded ∧ curry room f arguments token s =
          (.error (.obstacle .tooDeep), { s with anonymous := hi })) ∧
      Renaming s.anonymous arguments (s.anonymous + 1) remaining hi ∧
      remaining.map (·.1) = f.parameters.drop arguments.length := by
  obtain ⟨remaining, hi, fresh, renamed, remains⟩ :=
    @freshParameters_spec _ _ { s with anonymous := s.anonymous + 1 } _ formulas
      fun p hp => formula.parameters p (List.mem_of_mem_drop hp)
  refine ⟨remaining, hi, ?_, renamed, remains⟩
  have left : IsFormulaFunction hi
      (closure f arguments remaining (anonymousName s.anonymous token) token) :=
    renamed.isFormulaFunction (Nat.le_succ _) formula formulas remains
      ⟨"anon" ++ s.anonymous.repr, rfl⟩
  -- both texts that are written out on the way exist, so only the room can be too little
  have prototype : ∃ text, f.prototype.tex .display = .ok text := by
    obtain ⟨head, written⟩ := formula.name
    obtain ⟨params, written'⟩ := texAll_ok fun p hp =>
      exists_tex_of_plain .display (formula.parameters p hp)
    refine ⟨head ++ Printer.parenthesized (String.intercalate ", " params), ?_⟩
    rw [Function.prototype, tex, written, written']
    rfl
  have whole : ∃ text, (closure f arguments remaining (anonymousName s.anonymous token)
      token).toExpr.tex .oneLine = .ok text := by
    obtain ⟨params, written'⟩ := texAll_ok fun p hp =>
      exists_tex_of_plain .oneLine (left.parameters p hp)
    obtain ⟨inner, written, -⟩ := left.body.exists_tex .oneLine
    refine ⟨"anon" ++ s.anonymous.repr ++ Printer.parenthesized (String.intercalate ", " params) ++
      " = " ++ inner, ?_⟩
    rw [Function.toExpr, tex, written, written']
    rfl
  let g := closure f arguments remaining (anonymousName s.anonymous token) token
  have made : Agree (room ≠ .unbounded) (pure g.toExpr) { s with anonymous := hi } (do
      requireText room .display f.prototype
      requireText room .oneLine g.toExpr
      return g.toExpr) { s with anonymous := hi } :=
    (agree_requireText prototype id).bind_pure
      ((agree_requireText whole id).bind_pure (agree_pure _))
  obtain ⟨_, ⟨⟩, made⟩ := made
  rw [curry_of_fresh fresh]
  exact made

/-! ## Full calls -/

variable {body : Room → Expr → Eval Expr} {callee : Expr}

/-- In a scope of its own an action has the result that it has with the bindings made. -/
theorem inScope_of_setAll {α : Type} {bindings : List (Expr × Expr)} {action : Eval α}
    {env : Environment Expr} (h : s.environment.push.setAll bindings = .ok env) :
    (inScope room bindings action s).1 = (action { s with environment := env }).1 := by
  have inner : (do update (·.setAll bindings); action : Eval α)
      { s with environment := s.environment.push } = action { s with environment := env } :=
    bind_of_ok (update_of_ok h)
  show ((do update (·.setAll bindings); action : Eval α)
    { s with environment := s.environment.push }).1 = _
  rw [inner]

/-- A call of a known function is refused, evaluates the body or is a partial application, by the
number of its arguments. -/
theorem apply_of_found (found : s.environment.lookup callee = .ok (some f.toExpr)) :
    apply body room callee arguments token s =
      (if f.arity < arguments.length then
        refuse (.tooManyArguments arguments.length f.arity) token
      else if arguments.length = f.arity then
        inScope room (f.parameters.zip arguments) (body room f.body)
      else curry room f arguments token : Eval Expr) s := by
  have looked : lookup callee s = (.ok (some f.toExpr), s) := by
    show attempt (s.environment.lookup callee) s = _
    rw [found]
    rfl
  rw [apply, bind_of_ok looked]
  rfl

/-- With an argument for every parameter the body is evaluated in a scope that binds them. -/
theorem apply_of_full (found : s.environment.lookup callee = .ok (some f.toExpr))
    (count : arguments.length = f.arity) :
    apply body room callee arguments token s =
      inScope room (f.parameters.zip arguments) (body room f.body) s := by
  rw [apply_of_found found, if_neg (by omega), if_pos count]

/-- With fewer arguments than parameters a call is a partial application. -/
theorem apply_of_fewer (found : s.environment.lookup callee = .ok (some f.toExpr))
    (fewer : arguments.length < f.arity) :
    apply body room callee arguments token s = curry room f arguments token s := by
  rw [apply_of_found found, if_neg (by omega), if_neg (by omega)]

/-- The value of a name, where there is any room to look it up. -/
theorem evaluateWith_name {name : String} {t : Option Token} (some_room : room ≠ .levels 0) :
    evaluateWith body room (.var name [] t) s =
      (.ok ((s.environment.named name).getD (.var name [] t)), s) := by
  have looked : lookup (.var name [] t) s = (.ok (s.environment.named name), s) := by
    show attempt (s.environment.lookup _) s = _
    rw [Environment.lookup_name]
    rfl
  obtain none | ⟨inner, -, made⟩ := room.nested_cases (α := Eval Expr)
  · exact absurd none some_room
  · rw [evaluateWith, made]
    exact bind_of_ok looked

/-- Where there is no room nothing is evaluated. -/
theorem evaluateWith_levels_zero (e : Expr) :
    evaluateWith body (.levels 0) e s = (.error (.obstacle .tooDeep), s) := by
  rw [evaluateWith]
  rfl

section Closure

variable {env env' env₁ env₂ : Environment Expr} {count₁ count₂ : Nat} {firsts rest : List Expr}

/-- A name in the body of a function has the same value when all parameters are bound as what is put
in its place has when the renamed parameters are bound to the arguments that were not supplied. -/
theorem agree_name {m : String} (t : Option Token)
    (stays : ∀ a ∈ arguments,
      Agree limited (pure a) ⟨env₂, count₂⟩ (evaluateWith body room a) ⟨env₂, count₂⟩)
    (renamed : Renaming n arguments lo remaining hi) (le : n ≤ lo)
    (distinct : (firsts.map name? ++ remaining.map (·.1.name?)).Nodup)
    (count : rest.length = remaining.length) (used : IsUsed n m)
    (frame : env'.named m = env.named m)
    (direct : env₁.named m = (Scope.latest m
      (firsts.zip arguments ++ (remaining.map (·.1)).zip rest)).or (env.named m))
    (curried : ∀ m, env₂.named m =
      (Scope.latest m ((renamedParameters remaining).zip rest)).or (env'.named m)) :
    Agree limited (evaluateWith body room (.var m [] t)) ⟨env₁, count₁⟩
      (evaluateWith body room ((Expr.var m [] t).substitute
        (firsts.zip arguments ++ renamings remaining))) ⟨env₂, count₂⟩ := by
  by_cases none : room = .levels 0
  · rw [none]
    exact ⟨_, evaluateWith_levels_zero _, .inl (evaluateWith_levels_zero _)⟩
  have name (x : String) (u : Option Token) (s : Evaluator) :=
    @evaluateWith_name s room body x u none
  obtain ⟨-, distinct, apart⟩ := List.nodup_append.1 distinct
  have key := renamed.latest le distinct count used
  rw [Scope.latest_append] at direct
  have value := curried m
  rw [frame] at value
  rw [substitute_name, Scope.latest_append]
  -- a parameter is bound on both sides, one that was supplied only on the left
  cases found : Scope.latest m ((remaining.map (·.1)).zip rest) with
  | some v =>
    rw [found] at key direct
    rw [Option.some_or, Option.some_or] at direct
    obtain ⟨kept, bound⟩ | ⟨i, u, fresh, bound⟩ := key
    · have unsupplied : Scope.latest m (firsts.zip arguments) = .none := by
        obtain ⟨q, hq, named⟩ := Scope.exists_of_latest found
        obtain ⟨r, hr, rfl⟩ := List.mem_map.1 (List.of_mem_zip hq).1
        refine Scope.latest_eq_none_iff.2 fun b hb eq => ?_
        exact apart _ (List.mem_map.2 ⟨b.1, (List.of_mem_zip hb).1, eq⟩) _
          (List.mem_map.2 ⟨r, hr, named⟩) rfl
      rw [bound, Option.some_or] at value
      rw [kept, unsupplied, Option.or_none, Option.getD_none]
      exact ⟨.ok v, by rw [name, direct]; rfl, .inl (by rw [name, value]; rfl)⟩
    · have value := curried ("anon" ++ i.repr)
      rw [bound, Option.some_or] at value
      rw [fresh, Option.some_or, Option.getD_some, anonymousName]
      exact ⟨.ok v, by rw [name, direct]; rfl, .inl (by rw [name, value]; rfl)⟩
  | none =>
    rw [found] at key direct
    obtain ⟨kept, bound⟩ := key
    rw [bound, Option.none_or] at value
    rw [kept, Option.none_or]
    rw [Option.none_or] at direct
    cases given : Scope.latest m (firsts.zip arguments) with
    | some a =>
      obtain ⟨x, hx, -⟩ := Scope.exists_of_latest given
      rw [given, Option.some_or] at direct
      obtain ⟨_, ⟨⟩, kept⟩ := stays a (List.of_mem_zip hx).2
      exact ⟨.ok a, by rw [name, direct]; rfl, kept⟩
    | none =>
      rw [given, Option.none_or] at direct
      exact ⟨_, name _ _ _, .inl (by rw [Option.getD_none, name, direct, value])⟩

/-- The body of a function has the same value when all its parameters are bound as it has when the
first arguments were put into it and the renamed parameters are bound to the others. In between the
environment may have changed at a name that occurs neither in the body nor in these arguments. -/
theorem agree_closure {g : String} (name : Expr) (token : Option Token)
    (formula : IsFormulaFunction n f)
    (supplied : ∀ a ∈ arguments, IsFormula n a ∧ a.IsSettled ∧ ∀ m ∈ a.names, env.named m = none)
    (renamed : Renaming n arguments lo remaining hi) (le : n ≤ lo)
    (params : f.parameters = firsts ++ remaining.map (·.1))
    (first : firsts.length = arguments.length) (count : rest.length = remaining.length)
    (absent : g ∉ f.body.names ∧ ∀ a ∈ arguments, g ∉ a.names)
    (frame : ∀ m, m ≠ g → env'.named m = env.named m)
    (direct : ∀ m, env₁.named m =
      (Scope.latest m (f.parameters.zip (arguments ++ rest))).or (env.named m))
    (curried : ∀ m, env₂.named m =
      (Scope.latest m ((renamedParameters remaining).zip rest)).or (env'.named m)) :
    Agree (room ≠ .unbounded) (evaluateWith body room f.body) ⟨env₁, count₁⟩
      (evaluateWith body room (closure f arguments remaining name token).body)
      ⟨env₂, count₂⟩ := by
  have all : f.parameters.zip (arguments ++ rest) =
      firsts.zip arguments ++ (remaining.map (·.1)).zip rest := by
    rw [params, List.zip_append first]
  have some : f.parameters.zip arguments = firsts.zip arguments := by
    rw [params, ← List.append_nil arguments, List.zip_append first, List.zip_nil_right,
      List.append_nil, List.append_nil]
  have names : f.parameters.map name? = firsts.map name? ++ remaining.map (·.1.name?) := by
    rw [params, List.map_append, List.map_map]
    rfl
  -- the values that were put in stay as they are: their names are not bound
  have stays : ∀ inner : Room, (inner ≠ .unbounded → room ≠ .unbounded) → ∀ a ∈ arguments,
      Agree (room ≠ .unbounded) (pure a) ⟨env₂, count₂⟩ (evaluateWith body inner a)
        ⟨env₂, count₂⟩ := by
    intro inner few a ha
    obtain ⟨isFormula, settled, unbound⟩ := supplied a ha
    refine agree_settled isFormula settled (fun k hk => ?_) few
    have other : k ≠ g := by
      rintro rfl
      exact absent.2 a ha hk
    rw [curried, renamed.latest_of_mem_names le (fun b hb => (supplied b hb).1) ha hk,
      Option.none_or, frame k other, unbound k hk]
  rw [closure, some]
  refine agree_substitute formula.body fun l hl inner few => ?_
  obtain ⟨text, t, rfl⟩ | ⟨m, t, rfl, used⟩ := formula.body.of_mem_leaves hl
  · rw [substitute_number, evaluateWith]
    exact agree_nested fun _ _ => agree_pure _
  · have other : m ≠ g := by
      rintro rfl
      exact absent.1 (mem_names.2 ⟨t, hl⟩)
    exact agree_name t (stays inner few) renamed le (names ▸ formula.distinct) count used
      (frame m other) (all ▸ direct m) curried

end Closure

end TexAlgebra.Evaluation
