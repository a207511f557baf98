import TexAlgebra.Evaluation
import TexAlgebra.Proofs.Computation
/-!
# Results of evaluations

An evaluation made of parts has a value only if its parts have values, each in the state that the
part before it left behind.
-/

namespace TexAlgebra.Evaluation

variable {α β : Type} {s t : Evaluator}

/-- A sequence that ends with a result has got results from both of its steps. -/
theorem ok_of_bind {x : Eval α} {f : α → Eval β} {b : β} (h : (x >>= f) s = (.ok b, t)) :
    ∃ a r, x s = (.ok a, r) ∧ f a r = (.ok b, t) :=
  ok_of_bind_state h

theorem ok_of_pure {a b : α} (h : (pure a : Eval α) s = (.ok b, t)) : a = b ∧ s = t := by
  cases h
  exact ⟨rfl, rfl⟩

theorem ok_of_attempt {x : Except Obstacle α} {a : α} (h : attempt x s = (.ok a, t)) :
    x = .ok a ∧ s = t := by
  cases x with
  | error o => cases h
  | ok a =>
    cases h
    exact ⟨rfl, rfl⟩

theorem ok_of_refuse {cause : EvaluationCause} {token : Option Token} {a : α}
    (h : refuse cause token s = (.ok a, t)) : False := by
  cases h

/-- A lookup gives what the environment holds and leaves the state alone. -/
theorem ok_of_lookup {x : Expr} {value : Option Expr} (h : lookup x s = (.ok value, t)) :
    s.environment.lookup x = .ok value ∧ s = t := by
  exact ok_of_attempt h

/-- What is written where there may be too little room is the text of the expression. -/
theorem ok_of_texWithin {room : Room} {style : Style} {e : Expr} {text : String}
    (h : e.texWithin room style = .ok text) :
    room.holds e.height = true ∧ e.tex style = .ok text := by
  rw [Expr.texWithin] at h
  split at h
  · next fits => exact ⟨fits, h⟩
  · cases h

/-- An expression that can be written out has a text and fits into the room that is left. -/
theorem ok_of_requireText {room : Room} {style : Style} {e : Expr} {u : Unit}
    (h : requireText room style e s = (.ok u, t)) :
    (room.holds e.height = true ∧ ∃ text, e.tex style = .ok text) ∧ s = t := by
  obtain ⟨text, r, attempted, h⟩ := ok_of_bind h
  obtain ⟨written, rfl⟩ := ok_of_attempt attempted
  obtain ⟨fits, written⟩ := ok_of_texWithin written
  exact ⟨⟨fits, text, written⟩, (ok_of_pure h).2⟩

/-! ## Steps -/

/-- An expression that has a text and fits into the room that is left can be written out. -/
theorem requireText_of_ok {room : Room} {style : Style} {e : Expr} {text : String}
    (fits : room.holds e.height = true) (h : e.tex style = .ok text) :
    requireText room style e s = (.ok (), s) := by
  rw [requireText, Expr.texWithin, if_pos fits, h]
  rfl

/-- A change of the environment that succeeds changes nothing else. -/
theorem update_of_ok {f : Environment Expr → Except Obstacle (Environment Expr)}
    {env : Environment Expr} (h : f s.environment = .ok env) :
    update f s = (.ok (), { s with environment := env }) := by
  show (attempt (f s.environment) >>= fun env => set { s with environment := env } : Eval Unit) s =
    _
  rw [h]
  rfl

/-- A change of the environment that fails changes nothing. -/
theorem update_of_error {f : Environment Expr → Except Obstacle (Environment Expr)}
    {o : Obstacle} (h : f s.environment = .error o) :
    update f s = (.error (.obstacle o), s) := by
  show (attempt (f s.environment) >>= fun env => set { s with environment := env } : Eval Unit) s =
    _
  rw [h]
  rfl

/-- What an action in a scope comes to, and the scope that is closed then or left open. -/
theorem inScope_eq (room : Room) (bindings : List (Expr × Expr)) (action : Eval α) (s : Evaluator) :
    inScope room bindings action s =
      let result := (do update (·.setAll bindings); action : Eval α)
        { s with environment := s.environment.push }
      (result.1, if ranOut result.1 && !room.holds 1 then result.2
        else { result.2 with environment := result.2.environment.leave }) := rfl

/-- A scope whose action ends with a result is left again. -/
theorem inScope_of_ok {room : Room} {bindings : List (Expr × Expr)} {action : Eval α} {a : α}
    (h : (do update (·.setAll bindings); action : Eval α)
      { s with environment := s.environment.push } = (.ok a, t)) :
    inScope room bindings action s =
      (.ok a, { t with environment := t.environment.leave }) := by
  rw [inScope_eq, h]
  rfl

/-- A scope whose action fails is left again, unless the room has run out and there is none for
leaving either. -/
theorem inScope_of_error {room : Room} {bindings : List (Expr × Expr)} {action : Eval α}
    {failure : Failure} (h : (do update (·.setAll bindings); action : Eval α)
      { s with environment := s.environment.push } = (.error failure, t)) :
    inScope room bindings action s = (.error failure,
      if ranOut (.error failure : Except Failure α) && !room.holds 1 then t
      else { t with environment := t.environment.leave }) := by
  rw [inScope_eq, h]

/-! ## Operations -/

theorem exists_of_isNumber {e : Expr} (h : e.isNumber = true) : ∃ text t, e = .number text t := by
  cases e with
  | number text t => exact ⟨text, t, rfl⟩
  | _ => cases h

/-- An operation on anything but two numbers is kept. -/
theorem operation_kept {op : Operator} {lhs rhs : Expr} (token : Option Token)
    (plain : (lhs.isFunction || rhs.isFunction) = false)
    (kept : op = .equals ∨ (lhs.isNumber && rhs.isNumber) = false) :
    operation op lhs rhs token = return .binary op lhs rhs token := by
  unfold operation
  rw [if_neg (by rw [plain]; exact Bool.false_ne_true)]
  split
  · rfl
  · next operator =>
    rcases kept with equation | other
    · exact absurd equation operator
    · cases other
  · rfl

/-- An operation on two numbers is computed, and stays if it has no number for a result. -/
theorem operation_numbers {op : Operator} (h : op ≠ .equals) (a b : String)
    (t u token : Option Token) : operation op (.number a t) (.number b u) token = (do
      match ← attempt (Numeral.combined op a b) with
      | some text => return .number text (token <|> t)
      | none => return .binary op (.number a t) (.number b u) token) := by
  cases op with
  | equals => exact absurd rfl h
  | _ => rfl

/-! ## How steps end -/

section

variable {post : α → Evaluator → Prop} {fail : Failure → Evaluator → Prop}

/-- What does not look at the state ends with its result or with its obstacle. -/
theorem ends_attempt {x : Except Obstacle α} (ok : ∀ a, x = .ok a → post a s)
    (error : ∀ o, fail (.obstacle o) s) : Ends (attempt x) s post fail := by
  cases x with
  | error o => exact error o
  | ok a => exact ok a rfl

/-- To write an expression out changes nothing. -/
theorem ends_requireText {room : Room} {style : Style} {e : Expr}
    {post : Unit → Evaluator → Prop} (ok : post () s) (error : ∀ o, fail (.obstacle o) s) :
    Ends (requireText room style e) s post fail := by
  have written : Ends (attempt (e.texWithin room style)) s (fun _ t => t = s) fail :=
    ends_attempt (fun _ _ => rfl) error
  refine written.bind fun _ t same => ?_
  subst same
  exact ends_pure ok

/-- What comes after an expression was written out starts in the same state. -/
theorem ends_requireText_bind {room : Room} {style : Style} {e : Expr} {f : Unit → Eval α}
    (next : Ends (f ()) s post fail) (error : ∀ o, fail (.obstacle o) s) :
    Ends (requireText room style e >>= f) s post fail := by
  have written : Ends (requireText room style e) s (fun _ t => t = s) fail :=
    ends_requireText rfl error
  refine written.bind fun _ t same => ?_
  subst same
  exact next

/-- A lookup changes nothing. -/
theorem ends_lookup {x : Expr} {post : Option Expr → Evaluator → Prop}
    (ok : ∀ v, s.environment.lookup x = .ok v → post v s) (error : ∀ o, fail (.obstacle o) s) :
    Ends (lookup x) s post fail :=
  ends_attempt ok error

/-- A change of the environment ends with the new one, or with an obstacle and the old one. -/
theorem ends_update {f : Environment Expr → Except Obstacle (Environment Expr)}
    {post : Unit → Evaluator → Prop}
    (ok : ∀ env, f s.environment = .ok env → post () { s with environment := env })
    (error : ∀ o, fail (.obstacle o) s) : Ends (update f) s post fail := by
  cases changed : f s.environment with
  | error o =>
    rw [Ends, update_of_error changed]
    exact error o
  | ok env =>
    rw [Ends, update_of_ok changed]
    exact ok env changed

/-- A scope is left again, whatever happens in it, unless there was no room left: then it may still
be open. -/
theorem ends_inScope {room : Room} {bindings : List (Expr × Expr)} {action : Eval α}
    (ok : ∀ env, s.environment.push.setAll bindings = .ok env →
      Ends action { s with environment := env }
        (fun a t => post a { t with environment := t.environment.leave })
        fun e t => fail e { t with environment := t.environment.leave } ∧
          (e = .obstacle .tooDeep → room = .levels 0 → fail e t))
    (error : ∀ o, fail (.obstacle o) s)
    (still : fail (.obstacle .tooDeep) { s with environment := s.environment.push }) :
    Ends (inScope room bindings action) s post fail := by
  have changed : Ends (update (·.setAll bindings)) { s with environment := s.environment.push }
      (fun _ t => ∃ env, s.environment.push.setAll bindings = .ok env ∧
        t = { s with environment := env })
      fun e t => fail e { t with environment := t.environment.leave } ∧
        (e = .obstacle .tooDeep → room = .levels 0 → fail e t) :=
    ends_update (fun env h => ⟨env, h, rfl⟩) fun o => ⟨error o, fun eq _ => eq ▸ still⟩
  refine ends_between_unless
    (fun state : Evaluator => { state with environment := state.environment.push })
    (fun state => { state with environment := state.environment.leave }) (changed.bind ?_)
  rintro _ _ ⟨env, made, rfl⟩
  exact ok env made

end

end TexAlgebra.Evaluation
