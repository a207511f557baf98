import TexAlgebra.Proofs.Session.Scopes
import TexAlgebra.Proofs.Session.Typed
import TexAlgebra.Proofs.Typing.Faults
/-!
# Sound checking

What is checked in a saturated session and accepted is evaluated without a fault
(`sound_evaluate`). So no outcome of a session is a fault of evaluation as long as no statement that
defines something failed (`Session.no_evaluation_fault`).
-/

namespace TexAlgebra

open Classification (Fits)

variable {A : Arities} {m : Nat} {c : Classification} {v w : Expr}

/-! ## Calls -/

/-- What is needed of the bodies of functions for calls of them to be sound. -/
structure SoundBodies (A : Arities) (checkBody : Room → Expr → Typing.Check Classification)
    (evaluateBody : Room → Expr → Evaluation.Eval Expr) : Prop where
  types : ∀ room e, Expr.IsSaturated A false A.result e →
    Typing.KeepsPlain A A.result (checkBody room e)
  values : ∀ room e, Expr.IsSaturated A false A.result e →
    Evaluation.KeepsPlain A A.result (evaluateBody room e)
  sound : ∀ room room' e, Expr.IsSaturated A false A.result e →
    Sound A (checkBody room e) (evaluateBody room' e) (Fits A A.result)

variable {checkBody : Room → Expr → Typing.Check Classification}
  {evaluateBody : Room → Expr → Evaluation.Eval Expr} {room room' : Room}

/-- The body of a function has no fault under values whose classifications were accepted. -/
theorem ends_body (bodies : SoundBodies A checkBody evaluateBody) {f g : Function}
    (saturated : f.IsSaturated A m) (parameters : f.parameters = g.parameters)
    (body : f.body = g.body) {joint : Environment Typed} (bounded : joint.IsBounded A)
    {ts : List Typed} (plain : ∀ a ∈ ts, Typing.IsPlain A A.argument a.type)
    {types : Environment Classification}
    (checked : Typing.inScope room (f.parameters.zip (ts.map Typed.type)) (checkBody room f.body)
      joint.types = (.ok c, types))
    {s : Evaluator} (same : s.environment = joint.values) :
    Ends
      (Evaluation.inScope room' (g.parameters.zip (ts.map Typed.value)) (evaluateBody room' g.body))
      s
      (fun v _ => c.Fits A A.result v) fun failure _ => failure.IsObstacle := by
  have bindings : ∀ {γ : Type} (h : Typed → γ),
      f.parameters.zip (ts.map h) = Scope.mapped h (f.parameters.zip ts) := fun h =>
    List.zip_map_right
  obtain ⟨env, types', made, accepted⟩ := Typing.ok_of_inScope checked
  rw [bindings, Environment.mapped_push, Environment.setAll_mapped] at made
  rw [← parameters, ← body, bindings]
  refine Evaluation.ends_inScope (fun env' made' => ?_) Failure.isObstacle
    (Failure.isObstacle .tooDeep)
  rw [same, Environment.mapped_push, Environment.setAll_mapped] at made'
  cases changed : joint.push.setAll (f.parameters.zip ts) with
  | error o =>
    rw [changed] at made
    cases made
  | ok joint' =>
    rw [changed] at made made'
    cases made
    cases made'
    have bounded' : joint'.IsBounded A := by
      refine bounded.push.setAll (fun b hb => ?_) changed
      exact (plain _ (List.of_mem_zip hb).2).mono (saturated.open_to _ (List.of_mem_zip hb).1)
    exact (bodies.sound room room' f.body saturated.body joint' _ c types' bounded' rfl
      accepted).mono (fun v t h => h.1) fun _ _ h => ⟨h, fun _ _ => h⟩

/-- The call of a function whose body is sound is sound if there is an argument for every parameter.
The arguments are plain, so the body finds them where its classification did. -/
theorem ends_apply (bodies : SoundBodies A checkBody evaluateBody) {callee : Expr}
    {joint : Environment Typed} (bounded : joint.IsBounded A) {a : Typed}
    (looked : joint.lookup callee = .ok (some a)) {f : Function} (type : a.type = .function f [])
    (saturated : f.IsSaturated A m) {ts : List Typed}
    (plain_arguments : ∀ a ∈ ts, Typing.IsPlain A A.argument a.type) (full : ts.length = f.arity)
    {types : Environment Classification} (plain : Typing.IsPlain A A.result c)
    (checked : Typing.inScope room (f.parameters.zip (ts.map Typed.type)) (checkBody room f.body)
      joint.types = (.ok c, types))
    {s : Evaluator} (same : s.environment = joint.values) (token : Option Token) :
    Ends (Evaluation.apply evaluateBody room' callee (ts.map Typed.value) token) s
      (fun v _ => c.Fits A A.result v) fun failure _ => failure.IsObstacle := by
  refine (ends_lookup_values same looked).bind ?_
  rintro _ t ⟨rfl, rfl⟩
  rw [Option.map_some, Option.bind_some]
  cases function : a.value.function? with
  | none => exact ends_pure (.of_function? plain rfl)
  | some g =>
    obtain ⟨f', eq, parameters, body⟩ := a.describes g function
    rw [type] at eq
    cases eq
    have arity : (ts.map Typed.value).length = g.arity := by
      rw [List.length_map, full, Function.arity, Function.arity, parameters]
    dsimp only
    rw [if_neg (Nat.not_lt_of_le (Nat.le_of_eq arity)), if_pos arity]
    exact ends_body bodies saturated parameters body bounded plain_arguments checked same

/-- A call that is accepted is a call of a function that is bound, with all its arguments. -/
theorem ok_of_call (bodies : SoundBodies A checkBody evaluateBody) {joint : Environment Typed}
    (bounded : joint.IsBounded A) {name : String} {subscripts : List Expr}
    {u token : Option Token} {arguments : List Expr} (enough : A.named name ≤ arguments.length)
    (all : ∀ e ∈ arguments, Expr.IsSaturated A false A.argument e)
    {types : Environment Classification}
    (h : Typing.classifyWith checkBody room (.call (.var name subscripts u) arguments token)
      joint.types = (.ok c, types)) :
    ∃ room a f cs, joint.lookup (.var name subscripts u) = .ok (some a) ∧
      a.type = .function f [] ∧ f.IsSaturated A (A.named name) ∧ arguments.length = f.arity ∧
      Typing.classifyAllWith checkBody room arguments joint.types = (.ok cs, joint.types) ∧
      Typing.inScope room (f.parameters.zip cs) (checkBody room f.body) joint.types =
        (.ok c, types) := by
  rw [Typing.classifyWith] at h
  obtain ⟨room, h⟩ := ok_of_nested h
  obtain ⟨c₀, types₀, callee, h⟩ := ok_of_bind_state h
  rw [Typing.classifyWith] at callee
  obtain ⟨_, callee⟩ := ok_of_nested callee
  obtain ⟨_, _, found_type, result⟩ := ok_of_bind_state callee
  obtain ⟨rfl, found, looked, rfl⟩ := ok_of_lookup_types found_type
  cases result
  obtain ⟨⟨f, bound⟩, _, called, h⟩ := ok_of_bind_state h
  cases found with
  | none => cases Typing.ok_of_callable called
  | some a =>
    have type : a.type = .function f bound := Typing.ok_of_callable called
    have plain : Typing.IsPlain A (A.named name) a.type := bounded.of_lookup looked
    obtain ⟨rfl, rfl, saturated, full⟩ :=
      (Typing.keeps_callable token enough plain joint.types bounded.types).of_ok called
    obtain ⟨cs, _, supplied, h⟩ := ok_of_bind_state h
    obtain ⟨rfl, -⟩ :=
      (Typing.keeps_classifyAllWith bodies.types room arguments all joint.types
        bounded.types).of_ok supplied
    dsimp only at h
    rw [if_pos full] at h
    exact ⟨room, a, f, cs, looked, type, saturated, full, supplied, h⟩

/-- The arguments of a call bind nothing. So it does not matter that a call is checked from its
callee on and evaluated from its arguments on. -/
theorem sound_call (bodies : SoundBodies A checkBody evaluateBody) {name : String}
    {subscripts : List Expr} {u token : Option Token} {arguments : List Expr}
    (few : A.result ≤ m) (enough : A.named name ≤ arguments.length)
    (all : ∀ e ∈ arguments, Expr.IsSaturated A false A.argument e)
    (supplied : ∀ room room', Sound A (Typing.classifyAllWith checkBody room arguments)
      (Evaluation.evaluateAllWith evaluateBody room' arguments) (FitEach A A.argument)) :
    Sound A (Typing.classifyWith checkBody room (.call (.var name subscripts u) arguments token))
      (Evaluation.evaluateWith evaluateBody room'
        (.call (.var name subscripts u) arguments token)) (Fits A m) := by
  intro joint s c types bounded same checked
  have saturated :
      Expr.IsSaturated A false A.result (.call (.var name subscripts u) arguments token) :=
    .call (Nat.le_refl _) enough all
  have bounded_values : s.environment.AllBindings (Evaluation.IsBound A) := same ▸ bounded.values
  obtain ⟨kept, plain⟩ : types = joint.types ∧ Typing.IsPlain A A.result c :=
    (Typing.keeps_classifyWith bodies.types room _ saturated joint.types bounded.types).of_ok
      checked
  have unchanged := Evaluation.keeps_evaluateWith bodies.values room' _ saturated s bounded_values
  -- the environments are known, so only the result of the evaluation is left
  suffices fits : Ends
      (Evaluation.evaluateWith evaluateBody room'
        (.call (.var name subscripts u) arguments token)) s
      (fun v _ => c.Fits A A.result v) fun failure _ => failure.IsObstacle from
    (fits.and unchanged).mono
      (fun v t h => ⟨h.1.mono few, joint, bounded, kept, h.2.1.trans same⟩) fun _ _ h => h.1
  obtain ⟨room, a, f, cs, looked, type, saturated, full, checked_arguments, checked⟩ :=
    ok_of_call bodies bounded enough all checked
  rw [Evaluation.evaluateWith]
  refine ends_nested (Failure.isObstacle .tooDeep) fun room' => ?_
  have evaluated := (supplied room room' joint s cs _ bounded same checked_arguments).and
    (Evaluation.keeps_evaluateAllWith bodies.values room' arguments all s bounded_values)
  refine (evaluated.mono (fun _ _ h => h) fun _ _ h => h.1).bind ?_
  rintro vs t ⟨⟨⟨ts, rfl, rfl, plain_arguments⟩, -⟩, kept, length, -⟩
  rw [List.length_map] at length
  exact ends_apply bodies bounded looked type saturated plain_arguments (length.trans full) plain
    checked (kept.trans same) token

/-! ## Expressions -/

mutual

/-- The evaluation of a saturated expression is sound, with the bodies of functions given. -/
theorem sound_evaluateWith (bodies : SoundBodies A checkBody evaluateBody) {definitions : Bool}
    {m : Nat} (room room' : Room) (e : Expr) (h : Expr.IsSaturated A definitions m e) :
    Sound A (Typing.classifyWith checkBody room e) (Evaluation.evaluateWith evaluateBody room' e)
      (Fits A m) := by
  cases e with
  | number text token =>
    rw [Typing.classifyWith, Evaluation.evaluateWith]
    exact .nested fun _ _ => .of_pure (.of_function? trivial rfl)
  | var name subscripts token =>
    cases h with
    | var few =>
      rw [Typing.classifyWith, Evaluation.evaluateWith]
      refine .nested fun room room' => (sound_lookup _).bind ?_
      rintro _ _ ⟨found, rfl, rfl, plain⟩
      cases found with
      | none => exact .of_pure (.of_function? trivial rfl)
      | some a => exact .of_pure ⟨(plain a rfl).mono few, a.describes⟩
  | unary op operand token =>
    cases h with
    | unary inner =>
      rw [Typing.classifyWith, Evaluation.evaluateWith]
      exact .nested fun room room' =>
        (sound_evaluateWith bodies room room' operand inner).bind fun c v fits =>
          sound_signed _ operand op token fits.describes
  | binary op lhs rhs token =>
    cases h with
    | binary left right =>
      rw [Typing.classifyWith, Evaluation.evaluateWith]
      exact .nested fun room room' =>
        (sound_evaluateWith bodies room room' lhs left).bind fun c v fits =>
          (sound_evaluateWith bodies room room' rhs right).bind fun d w fits' =>
            sound_operation _ lhs rhs op token fits.describes fits'.describes
  | group items token =>
    cases h with
    | group all =>
      rw [Typing.classifyWith, Evaluation.evaluateWith]
      exact .nested fun room room' =>
        (sound_evaluateAllWith bodies room room' items all).bind fun cs vs each =>
          sound_lastOf token each rfl
  | command name arguments token =>
    cases h with
    | command all =>
      rw [Typing.classifyWith, Evaluation.evaluateWith]
      exact .nested fun room room' =>
        (sound_evaluateAllWith bodies room room' arguments all).bind fun cs vs each =>
          sound_lastOf token each rfl
  | block name arguments statements token =>
    cases h with
    | block all =>
      rw [Typing.classifyWith, Evaluation.evaluateWith]
      exact .nested fun room room' =>
        (sound_evaluateAllWith bodies room room' statements all).bind fun cs vs each =>
          sound_lastOf token each rfl
  | prototype => cases h
  | function form name parameters head body closed token =>
    cases h with
    | function few bounded open_to plain =>
      rw [Typing.classifyWith, Evaluation.evaluateWith]
      -- a function is classified as itself
      have describes : Classification.Describes
          (.function ⟨form, name, parameters, head, body, closed, token⟩ [])
          (.function form name parameters head body closed token) := by
        intro g eq
        cases eq
        exact ⟨_, rfl, rfl, rfl⟩
      refine .nested fun room room' => ?_
      exact (sound_bind name ⟨_, _, describes⟩ ⟨rfl, bounded, open_to, plain⟩).bind
        fun _ _ _ => .requireText (.of_pure ⟨⟨rfl, few, open_to, plain⟩, describes⟩)
  | call callee arguments token =>
    cases h with
    | call few enough all =>
      exact sound_call bodies few enough all fun room room' =>
        sound_evaluateAllWith bodies room room' _ all
  | binding target value token =>
    cases h with
    | binding few inner =>
      rw [Typing.classifyWith, Evaluation.evaluateWith]
      exact .nested fun room room' =>
        (sound_evaluateWith bodies room room' value inner).bind fun c v fits =>
          (sound_define room' target token fits).mono fun _ _ fits => fits.mono few

/-- So is that of the expressions of a list, one after the other. -/
theorem sound_evaluateAllWith (bodies : SoundBodies A checkBody evaluateBody)
    {definitions : Bool} {m : Nat} (room room' : Room) (es : List Expr)
    (h : ∀ e ∈ es, Expr.IsSaturated A definitions m e) :
    Sound A (Typing.classifyAllWith checkBody room es)
      (Evaluation.evaluateAllWith evaluateBody room' es)
      (FitEach A m) := by
  cases es with
  | nil =>
    rw [Typing.classifyAllWith, Evaluation.evaluateAllWith]
    exact .of_pure fitEach_nil
  | cons e es =>
    rw [Typing.classifyAllWith, Evaluation.evaluateAllWith]
    exact (sound_evaluateWith bodies room room' e (h e List.mem_cons_self)).bind fun c v fits =>
      (sound_evaluateAllWith bodies room room' es fun e he => h e (List.mem_cons_of_mem _ he)).bind
        fun cs vs each => .of_pure (.cons fits each)

end

/-! ## Statements -/

/-- The evaluation of a saturated expression is sound, however deep it may go. -/
theorem sound_evaluateWithin (depth depth' : Nat) (room room' : Room) {definitions : Bool} {m : Nat}
    {e : Expr} (h : Expr.IsSaturated A definitions m e) :
    Sound A (Typing.classifyWithin depth room e) (Evaluation.evaluateWithin depth' room' e)
      (Fits A m) := by
  -- the depth of checking goes down with the depth of evaluation, whichever is reached first
  induction depth generalizing depth' room room' definitions m e with
  | zero => exact .of_throw
  | succ depth ih =>
    cases depth' with
    | zero => exact fun _ _ _ _ _ _ _ => ends_throw (Failure.isObstacle .tooDeep)
    | succ depth' =>
      have bodies :
          SoundBodies A (Typing.classifyWithin depth) (Evaluation.evaluateWithin depth') :=
        ⟨fun room _ h => Typing.keeps_classifyWithin depth room _ h,
          fun room _ h => Evaluation.keeps_evaluateWithin depth' room _ h,
          fun room room' _ h => ih depth' room room' h⟩
      exact sound_evaluateWith bodies room room' e h

/-- A saturated statement that is accepted is evaluated without a fault. -/
theorem sound_evaluate {definitions : Bool} {e : Expr} (h : Expr.IsSaturated A definitions m e) :
    Sound A (Typing.check e) (Evaluation.evaluate e) (Fits A m) := by
  refine (sound_evaluateWithin _ _ _ _ h).bind fun c v fits => ?_
  refine Sound.requireText <| Sound.requireText <| Sound.of_keeps (P := (· = c)) ?_ ?_
  · exact (Typing.keeps_attempt (P := fun _ => True) _ fun _ _ => trivial).bind fun _ _ =>
      keeps_pure rfl
  · rintro _ s rfl
    exact ends_pure ⟨fits, rfl⟩

/-- A saturated expression in which there may be no definitions has none. -/
theorem Expr.IsSaturated.definitions_eq_nil {e : Expr} (h : Expr.IsSaturated A false m e) :
    e.definitions = [] := by
  generalize eq : false = definitions at h
  induction h with
  | number | var => rfl
  | unary _ inner => exact inner eq
  | binary _ _ left right => exact List.append_eq_nil_iff.2 ⟨left eq, right eq⟩
  | group _ all | command _ all | block _ all =>
    exact Expr.definitionsOfAll_eq_nil fun e he => all e he eq
  | call _ _ _ all => exact Expr.definitionsOfAll_eq_nil fun e he => all e he rfl
  | function | binding => cases eq

/-! ## Sessions -/

/-- Whether a fault is one that checking should have found. -/
def Fault.IsOfEvaluation (fault : Fault) : Prop := ∃ cause, fault.cause = .evaluation cause

namespace Session

/-- Whether the values that are bound in a session fit their classifications and keep to the bounds
for their variables. -/
def Agrees (A : Arities) (s : Session) : Prop :=
  ∃ joint : Environment Typed,
    joint.IsBounded A ∧ s.types = joint.types ∧ s.environment = joint.values

/-- Whether what is bound in a session keeps to the bounds for its variables. -/
def IsBounded (A : Arities) (s : Session) : Prop := s.types.AllBindings (Typing.IsBound A)

instance (A : Arities) (s : Session) : Decidable (s.IsBounded A) :=
  inferInstanceAs (Decidable (∀ scope ∈ s.types.scopes ++ [s.types.globals], ∀ b ∈ scope,
    Typing.IsPlain A (A.of b.1) b.2))

/-- What is bound in the initial session fits together. -/
theorem agrees_initial : initial.Agrees A := ⟨.empty, Environment.isBounded_empty, rfl, rfl⟩

variable {s : Session} {e : Expr}

/-- What agrees under some bounds agrees under all others that the bindings keep to. -/
theorem Agrees.of_isBounded {B : Arities} (h : s.Agrees A) (bounded : s.IsBounded B) :
    s.Agrees B := by
  obtain ⟨joint, -, types, values⟩ := h
  exact ⟨joint, Environment.isBounded_of_types (types ▸ bounded), types, values⟩

/-- A fault of a statement is that of its failure, or calls were nested too deeply. -/
theorem fault_of_fail {failure : Failure} {fault : Fault}
    (other : ∀ fault, failure = .fault fault → ¬fault.IsOfEvaluation)
    (h : (Session.fail e failure s).1 = .ok ⟨some e, .error fault⟩) : ¬fault.IsOfEvaluation := by
  cases failure with
  | fault =>
    cases h
    exact other _ rfl
  | obstacle o =>
    cases o with
    | tooDeep =>
      cases h
      rintro ⟨cause, eq⟩
      cases eq
    | _ => cases h

variable {r : Except Obstacle Outcome × Session}

/-- Where the bindings agree, no saturated statement has a fault of evaluation. -/
theorem Executed.not_isOfEvaluation {definitions : Bool} (h : Executed e s r) (agrees : s.Agrees A)
    (saturated : Expr.IsSaturated A definitions A.other e) {fault : Fault}
    (result : r.1 = .ok ⟨some e, .error fault⟩) : ¬fault.IsOfEvaluation := by
  obtain ⟨joint, bounded, types, values⟩ := agrees
  cases h with
  | refused checked =>
    refine fault_of_fail (fun fault eq => ?_) result
    obtain ⟨cause, typing⟩ := (Typing.blames_check e s.types).of_error checked fault eq
    rintro ⟨cause', evaluation⟩
    rw [typing] at evaluation
    cases evaluation
  | failed checked evaluated =>
    refine fault_of_fail (fun fault eq => ?_) result
    have sound := sound_evaluate saturated joint s.evaluator _ _ bounded values (types ▸ checked)
    obtain ⟨o, rfl⟩ := sound.of_error evaluated
    cases eq
  | succeeded => cases result

/-- The bindings agree after a saturated statement that has a value. -/
theorem Executed.agrees_of_ok {definitions : Bool} (h : Executed e s r) (agrees : s.Agrees A)
    (saturated : Expr.IsSaturated A definitions A.other e) {v : Expr}
    (result : r.1 = .ok ⟨some e, .ok v⟩) : r.2.Agrees A := by
  obtain ⟨joint, bounded, types, values⟩ := agrees
  cases h with
  | refused | failed =>
    obtain ⟨fault, eq⟩ := outcome_of_fail result
    cases eq
  | succeeded checked evaluated =>
    have sound := sound_evaluate saturated joint s.evaluator _ _ bounded values (types ▸ checked)
    obtain ⟨-, joint', bounded', types', values'⟩ := sound.of_ok evaluated
    exact ⟨joint', bounded', types', values'⟩

/-- The bindings are as before after any saturated statement without definitions. -/
theorem Executed.agrees_of_plain (h : Executed e s r) (rest : s.IsAtRest) (agrees : s.Agrees A)
    (saturated : Expr.IsSaturated A false A.other e) : r.2.Agrees A := by
  obtain ⟨types, values⟩ := h.extends rest
  rw [saturated.definitions_eq_nil] at types values
  rw [Agrees, types.eq_of_nil, values.eq_of_nil]
  exact agrees

/-- The outcomes after which the bindings agree: nothing was read, or a saturated statement has a
value, or has a fault but no definitions. -/
def Lasts (A : Arities) : Except Obstacle Outcome → Prop
  | .ok ⟨none, _⟩ => True
  | .ok ⟨some e, .ok _⟩ => Expr.IsSaturated A true A.other e
  | .ok ⟨some e, .error _⟩ => Expr.IsSaturated A false A.other e
  | .error _ => False

instance : DecidablePred (Lasts A)
  | .ok ⟨none, _⟩ => inferInstanceAs (Decidable True)
  | .ok ⟨some e, .ok _⟩ => inferInstanceAs (Decidable (Expr.IsSaturated A true A.other e))
  | .ok ⟨some e, .error _⟩ => inferInstanceAs (Decidable (Expr.IsSaturated A false A.other e))
  | .error _ => inferInstanceAs (Decidable False)

/-- Whether the statement of an outcome, if there is one, is saturated. -/
def OfSaturated (A : Arities) : Except Obstacle Outcome → Prop
  | .ok ⟨some e, _⟩ => Expr.IsSaturated A true A.other e
  | _ => True

instance : DecidablePred (OfSaturated A)
  | .ok ⟨some e, _⟩ => inferInstanceAs (Decidable (Expr.IsSaturated A true A.other e))
  | .ok ⟨none, _⟩ => inferInstanceAs (Decidable True)
  | .error _ => inferInstanceAs (Decidable True)

/-- Whether an outcome is a fault of evaluation. -/
def IsEvaluationFault (r : Except Obstacle Outcome) : Prop :=
  ∃ parsed fault, r = .ok ⟨parsed, .error fault⟩ ∧ fault.IsOfEvaluation

/-- Behind a saturated statement what is bound still fits together. -/
theorem Agrees.carryOut {statement : Statement} (h : s.Agrees A) (rest : s.IsAtRest)
    (lasts : Lasts A (s.carryOut statement).1) : (s.carryOut statement).2.Agrees A := by
  cases statement with
  | error fault => exact h
  | ok e =>
    have carried : Executed e s (s.carryOut (.ok e)) := executed e s
    cases result : (s.carryOut (.ok e)).1 with
    | error o =>
      rw [result] at lasts
      exact lasts.elim
    | ok outcome =>
      rw [result] at lasts
      obtain ⟨parsed, value⟩ := outcome
      obtain rfl : parsed = some e := carried.parsed result
      cases value with
      | error fault => exact carried.agrees_of_plain rest h lasts
      | ok v => exact carried.agrees_of_ok h lasts result

/-- Where what is bound fits together no saturated statement fails in its evaluation. -/
theorem Agrees.not_isEvaluationFault {statement : Statement} (h : s.Agrees A)
    (saturated : OfSaturated A (s.carryOut statement).1) :
    ¬IsEvaluationFault (s.carryOut statement).1 := by
  rintro ⟨parsed, fault, result, of_evaluation⟩
  cases statement with
  | error fault' =>
    cases result
    obtain ⟨cause, eq⟩ := of_evaluation
    cases eq
  | ok e =>
    have carried : Executed e s (s.carryOut (.ok e)) := executed e s
    obtain rfl : parsed = some e := carried.parsed result
    rw [result] at saturated
    exact carried.not_isOfEvaluation h saturated result of_evaluation

/-- The bindings agree after each of several outcomes, under bounds that may change on the way to
any that the bindings keep to by then. -/
theorem Carried.agrees {l : List (Except Obstacle Outcome × Session)} (carried : Carried s l)
    (reached : s.IsReachable) (A : Nat → Arities) (h : s.Agrees (A 0)) {i : Nat}
    (le : i ≤ l.length)
    (kept : ∀ j < i, A (j + 1) = A j ∨ (s.after (l.take (j + 1))).IsBounded (A (j + 1)))
    (lasts : ∀ (j : Nat) (hj : j < l.length), j < i → Lasts (A j) l[j].1) :
    (s.after (l.take i)).Agrees (A i) := by
  induction i with
  | zero => exact h
  | succ i ih =>
    have before := ih (Nat.le_of_succ_le le) (fun j hj => kept j (Nat.lt_succ_of_lt hj))
      fun j hj lt => lasts j hj (Nat.lt_succ_of_lt lt)
    obtain ⟨statement, outcome⟩ := carried.getElem i le
    have lasting := lasts i le (Nat.lt_succ_self i)
    rw [← outcome] at lasting
    have later := before.carryOut (carried.isReachable reached i).isAtRest lasting
    rw [outcome, ← after_take_succ le] at later
    obtain same | bounded := kept i (Nat.lt_succ_self i)
    · exact same ▸ later
    · exact later.of_isBounded bounded

/-- What is accepted in a session is evaluated without a fault, given that no function is called
with some of its arguments only and that no statement with definitions failed before: whatever went
before and however it was divided into texts, no outcome is a fault of evaluation. How many
parameters a name can have is bounded for each statement by itself, according to what is bound by
then; a bound that is not changed need not be checked again. -/
theorem no_evaluation_fault (sources : List String) (A : Nat → Arities) (i : Nat)
    (h : i < (initial.runAll sources).length)
    (kept : ∀ j < i, A (j + 1) = A j ∨
      (initial.after ((initial.runAll sources).take (j + 1))).IsBounded (A (j + 1)))
    (lasts : ∀ (j : Nat) (hj : j < (initial.runAll sources).length), j < i →
      Lasts (A j) (initial.runAll sources)[j].1)
    (saturated : OfSaturated (A i) (initial.runAll sources)[i].1) :
    ¬IsEvaluationFault (initial.runAll sources)[i].1 := by
  have carried := carried_runAll sources initial
  have agrees := carried.agrees .initial A agrees_initial (Nat.le_of_lt h) kept lasts
  obtain ⟨statement, outcome⟩ := carried.getElem i h
  rw [← outcome] at saturated ⊢
  exact agrees.not_isEvaluationFault saturated

/-- After `f` is defined by `f(x) = x` and called, the sum `f + 1` is refused and not evaluated. -/
theorem no_evaluation_fault_operand :
    ∃ h : 2 < (initial.runAll ["\\func\x7bf(x)\x7d\x7bx\x7d", "f(2)", "f + 1"]).length,
      ¬IsEvaluationFault
        (initial.runAll ["\\func\x7bf(x)\x7d\x7bx\x7d", "f(2)", "f + 1"])[2].1 :=
  let A : Arities := ⟨fun name => if name = "f" then 1 else 0, 0, 0, 1⟩
  ⟨by decide +kernel, no_evaluation_fault _ (fun _ => A) 2 _ (fun _ _ => .inl rfl)
    (by decide +kernel) (by decide +kernel)⟩

/-- A statement that failed can leave a binding behind. The function `f` is defined, and then a list
of `f = 1` and `-z` is refused because of `z`. From there on `f` is classified as a number but bound
to a function, so `f + 1` is accepted and cannot be evaluated. -/
theorem evaluation_fault_of_failed_definition : ∃ e₁ e₂ e₃ : Expr,
    IsEvaluationFault (execute e₃ (execute e₂ (execute e₁ initial).2).2).1 := by
  let f : Expr := .var "f" [] none
  let x : Expr := .var "x" [] none
  let z : Expr := .var "z" [] none
  let one : Expr := .number "1" none
  let definition : Function := ⟨.defined, f, [x], none, x, [], none⟩
  let rebinding : Expr := .block "a" [] [.binding f one none, .unary .minus z none] none
  let sum : Expr := .binary .plus f one none
  let types₁ : Environment Classification := ⟨[(f, .function definition [])], []⟩
  let types₂ : Environment Classification := ⟨[(f, .number one)], []⟩
  let values : Evaluator := ⟨⟨[(f, definition.toExpr)], []⟩, 0⟩
  let failure : Failure := .fault ⟨.typing (.badOperand (.unknown z)), none⟩
  have defined : (execute definition.toExpr initial).2 = ⟨types₁, values⟩ := rfl
  have found : f.matchesWith f = .ok true := Expr.matchesWith_name f "f" none
  have rebound : types₁.set f (.number one) = .ok types₂ := by
    show ((do return (← Scope.erase f [(f, .function definition [])]) ++ [(f, .number one)] :
      Except Obstacle (Scope Classification)) >>= fun s => pure ⟨s, []⟩) = Except.ok types₂
    rw [Scope.erase, found]
    rfl
  have bound : Typing.bind f (.number one) types₁ = (.ok (), types₂) := by
    show (do set (← Typing.attempt (types₁.set f (.number one))) : Typing.Check Unit) types₁ = _
    rw [rebound]
    rfl
  have unbound : Typing.lookup z types₂ = (.ok none, types₂) := by
    show Typing.attempt (types₂.lookup z) types₂ = _
    rw [Environment.lookup_name]
    rfl
  have refused : (execute rebinding ⟨types₁, values⟩).2 = ⟨types₂, values⟩ := by
    let classify := Typing.classifyWith (Typing.classifyWithin 329)
    have binding : classify (.levels 329) (.binding f one none) types₁ =
        (.ok (.number one), types₂) := by
      show Typing.classifyWith _ _ _ types₁ = _
      rw [Typing.classifyWith]
      exact (bind_of_ok rfl).trans (bind_of_ok bound)
    have signed : classify (.levels 329) (.unary .minus z none) types₂ =
        (.error failure, types₂) := by
      have unknown : classify (.levels 328) z types₂ = (.ok (.unknown z), types₂) := by
        show Typing.classifyWith _ _ z types₂ = _
        rw [Typing.classifyWith]
        exact bind_of_ok unbound
      show Typing.classifyWith _ _ _ types₂ = _
      rw [Typing.classifyWith]
      exact bind_of_ok unknown
    have items : Typing.classifyAllWith (Typing.classifyWithin 329) (.levels 329)
        [.binding f one none, .unary .minus z none] types₁ = (.error failure, types₂) := by
      rw [Typing.classifyAllWith, Typing.classifyAllWith]
      exact (bind_of_ok binding).trans (bind_of_error (bind_of_error signed))
    have checked : Typing.check rebinding types₁ = (.error failure, types₂) :=
      bind_of_error (bind_of_error items)
    rw [execute, show (Typing.check rebinding).run types₁ = _ from checked]
    rfl
  have evaluated : IsEvaluationFault (execute sum ⟨types₂, values⟩).1 :=
    ⟨some sum, ⟨.evaluation .badOperator, none⟩, rfl, .badOperator, rfl⟩
  refine ⟨definition.toExpr, rebinding, sum, ?_⟩
  rw [defined, refused]
  exact evaluated

end Session

end TexAlgebra
