import TexAlgebra.Proofs.Computation
import TexAlgebra.Typing
/-!
# Results of classifications

How the steps end of which a classification is made.
-/

namespace TexAlgebra.Typing

variable {α : Type} {types : Environment Classification}
  {post : α → Environment Classification → Prop}
  {fail : Failure → Environment Classification → Prop}

/-- What does not look at the environment ends with its result or with its obstacle. -/
theorem ends_attempt {x : Except Obstacle α} (ok : ∀ a, x = .ok a → post a types)
    (error : ∀ o, fail (.obstacle o) types) : Ends (attempt x) types post fail := by
  cases x with
  | error o => exact error o
  | ok a => exact ok a rfl

/-- A lookup changes nothing. -/
theorem ends_lookup {x : Expr} {post : Option Classification → Environment Classification → Prop}
    (ok : ∀ c, types.lookup x = .ok c → post c types) (error : ∀ o, fail (.obstacle o) types) :
    Ends (lookup x) types post fail :=
  ends_attempt ok error

/-- A binding ends with the new environment, or with an obstacle and the old one. -/
theorem ends_bind {x : Expr} {c : Classification}
    {post : Unit → Environment Classification → Prop}
    (ok : ∀ env, types.set x c = .ok env → post () env)
    (error : ∀ o, fail (.obstacle o) types) : Ends (bind x c) types post fail := by
  have changed : Ends (attempt (types.set x c)) types
      (fun env t => types.set x c = .ok env ∧ t = types) fail :=
    ends_attempt (fun env h => ⟨h, rfl⟩) error
  exact changed.bind fun env t h => ok env h.1

/-- A scope is left again, whatever happens in it, unless there was no room left: then it may still
be open. -/
theorem ends_inScope {room : Room} {bindings : List (Expr × Classification)} {action : Check α}
    (ok : ∀ env, types.push.setAll bindings = .ok env →
      Ends action env (fun a t => post a t.leave) fun e t =>
        fail e t.leave ∧ (e = .obstacle .tooDeep → room = .levels 0 → fail e t))
    (error : ∀ o, fail (.obstacle o) types) (still : fail (.obstacle .tooDeep) types.push) :
    Ends (inScope room bindings action) types post fail := by
  have changed : Ends (attempt (types.push.setAll bindings)) types.push
      (fun env t => types.push.setAll bindings = .ok env ∧ t = types.push)
      (fun e t => fail e t.leave ∧ (e = .obstacle .tooDeep → room = .levels 0 → fail e t)) :=
    ends_attempt (fun env h => ⟨h, rfl⟩) fun o => ⟨error o, fun eq _ => eq ▸ still⟩
  exact ends_between_unless _ _ (changed.bind fun env t h => ok env h.1)

/-- A scope that has a result has made its bindings and got that result inside. -/
theorem ok_of_inScope {room : Room} {bindings : List (Expr × Classification)} {action : Check α}
    {a : α} {types' : Environment Classification}
    (h : inScope room bindings action types = (.ok a, types')) :
    ∃ env t, types.push.setAll bindings = .ok env ∧ action env = (.ok a, t) := by
  have inner : Ends (inScope room bindings action) types
      (fun b _ => ∃ env t, types.push.setAll bindings = .ok env ∧ action env = (.ok b, t))
      fun _ _ => True := by
    refine ends_inScope (fun env made => ?_) (fun _ => trivial) trivial
    rw [Ends]
    split
    · next b t result => exact ⟨env, t, made, result⟩
    · exact ⟨trivial, fun _ _ => trivial⟩
  exact inner.of_ok h

/-- In a scope of its own an action has the result that it has with the bindings made. -/
theorem inScope_of_setAll {room : Room} {bindings : List (Expr × Classification)}
    {action : Check α} {env : Environment Classification}
    (made : types.push.setAll bindings = .ok env) :
    (inScope room bindings action types).1 = (action env).1 := by
  have inner : (do set (← attempt ((← get).setAll bindings)); action : Check α) types.push =
      action env := by
    show (attempt (types.push.setAll bindings) >>= fun env => (do set env; action) : Check α)
      types.push = _
    rw [made]
    rfl
  show ((do set (← attempt ((← get).setAll bindings)); action : Check α) types.push).1 = _
  rw [inner]

/-- What can be called is a function that has as many parameters as arguments are given, or more.
Otherwise the call is refused: for the number of its arguments, or as one of no function. -/
theorem callable_cases (given : Nat) (token : Option Token) (c : Classification) :
    (∃ f bound, c = .function f bound ∧ given ≤ f.arity ∧
      callable given token c = pure (f, bound)) ∨
    (∃ f bound, c = .function f bound ∧ f.arity < given ∧
      callable given token c = refuse (.tooManyArguments given f.arity) token) ∨
    callable given token c = refuse (.notFunction c) token := by
  cases c with
  | function f bound =>
    by_cases many : f.arity < given
    · exact .inr (.inl ⟨f, bound, rfl, many, if_pos many⟩)
    · exact .inl ⟨f, bound, rfl, Nat.le_of_not_lt many, if_neg many⟩
  | _ => exact .inr (.inr rfl)

/-- Only functions can be called. -/
theorem ok_of_callable {given : Nat} {token : Option Token} {c : Classification} {f : Function}
    {bound : List (Expr × Classification)} {types' : Environment Classification}
    (h : callable given token c types = (.ok (f, bound), types')) : c = .function f bound := by
  obtain ⟨g, bound', rfl, -, eq⟩ | ⟨g, bound', -, -, eq⟩ | eq := callable_cases given token c
  · rw [eq] at h
    cases h
    rfl
  · rw [eq] at h
    cases h
  · rw [eq] at h
    cases h

end TexAlgebra.Typing
