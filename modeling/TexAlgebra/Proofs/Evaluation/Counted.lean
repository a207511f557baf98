import TexAlgebra.Proofs.Evaluation.Fresh
/-!
# Counting in evaluations

The fresh names in what is bound have numbers below the counter (`Evaluator.IsCounted`). An
evaluation keeps it so, whether it succeeds or not, and its result mentions no other fresh names. On
its way it makes the fresh names from the counter before it up to the counter after it, in order:
the partial applications form a chain, in which each starts at the counter that the one before it
left, and is one of functions and arguments that were there before (`Evaluation.follows_evaluate`).
-/

namespace TexAlgebra

open TexAlgebra.Expr

/-- Whether all fresh names in the bindings have numbers below the counter. -/
def Evaluator.IsCounted (s : Evaluator) : Prop :=
  s.environment.AllBindings fun x v => x.IsBefore s.anonymous ∧ v.IsBefore s.anonymous

/-- A counter that only grows still counts all names of an environment that stays as it is. -/
theorem Evaluator.IsCounted.moved {s t : Evaluator} (h : s.IsCounted)
    (same : t.environment = s.environment) (le : s.anonymous ≤ t.anonymous) : t.IsCounted := by
  rw [IsCounted, same]
  exact h.mono fun _ _ old => ⟨old.1.mono le, old.2.mono le⟩

namespace Evaluation

variable {α β : Type} {n m lo mid hi : Nat} {Q : Nat → α → Prop} {R : Nat → β → Prop}
  {as as' : List Application} {own rest : Trail Application} {s : Evaluator} {room : Room}

/-! ## Chains -/

/-- Whether partial applications follow one another while the counter goes from one number to
another, each of what was there before it. -/
inductive Chained : Nat → List Application → Nat → Prop
  | nil {lo : Nat} : Chained lo [] lo
  | cons {a : Application} {as : List Application} {hi : Nat} (known : a.IsKnown)
      (later : Chained a.counter as hi) : Chained a.state.anonymous (a :: as) hi

/-- Two chains of which the second starts where the first ends are one chain. -/
theorem Chained.append (h : Chained lo as mid) (h' : Chained mid as' hi) :
    Chained lo (as ++ as') hi := by
  induction h with
  | nil => exact h'
  | cons known _ ih => exact .cons known (ih h')

/-- The fresh names of a chain are counted through. -/
theorem Chained.counts (h : Chained lo as hi) : Counts lo (as.flatMap (·.freshNames)) hi := by
  induction h with
  | nil => exact .nil
  | @cons a as hi _ _ ih => exact a.counts.append ih

/-- A chain ends no lower than it starts. -/
theorem Chained.le (h : Chained lo as hi) : lo ≤ hi := h.counts.le

/-- All applications of a chain are of known functions to known arguments. -/
theorem Chained.isKnown (h : Chained lo as hi) : ∀ a ∈ as, a.IsKnown := by
  induction h with
  | nil => exact fun _ mem => (List.not_mem_nil mem).elim
  | cons known _ ih => exact List.forall_mem_cons.2 ⟨known, ih⟩

/-! ## Computations -/

/-- Whether a computation keeps the bindings counted, from every state with the counter at `n` or
further on, has a result with the property `Q` at the counter then or fails on account of no
expression, and meets the partial applications of a trail, which lead from the one counter to the
other. -/
def Follows (n : Nat) (x : Eval α) (trail : Trail Application) (Q : Nat → α → Prop) : Prop :=
  ∀ s : Evaluator, n ≤ s.anonymous → s.IsCounted →
    Ends x s (fun a t => t.IsCounted ∧ Q t.anonymous a)
        (fun failure t => t.IsCounted ∧ failure.AllVariables fun _ => False) ∧
      Chained s.anonymous (trail s) (x s).2.anonymous

/-- What follows its applications from `n` on does so from any later number on. -/
theorem Follows.mono {x : Eval α} (h : Follows n x own Q) (le : n ≤ m) : Follows m x own Q :=
  fun s le' => h s (le.trans le')

/-- What changes nothing meets no application. -/
theorem follows_of_ends {x : Eval α}
    (h : ∀ s : Evaluator, n ≤ s.anonymous → s.IsCounted →
      Ends x s (fun a t => t = s ∧ Q s.anonymous a)
        fun failure t => t = s ∧ failure.AllVariables fun _ => False) : Follows n x .none Q := by
  intro s le hs
  have ended := h s le hs
  have kept : (x s).2 = s := (ended.mono (fun _ _ h => h.1) fun _ _ h => h.1).state
  refine ⟨ended.mono ?_ ?_, by rw [kept]; exact .nil⟩
  · rintro a _ ⟨rfl, property⟩
    exact ⟨hs, property⟩
  · rintro failure _ ⟨rfl, property⟩
    exact ⟨hs, property⟩

theorem follows_pure {a : α} (h : ∀ m, n ≤ m → Q m a) : Follows n (pure a) .none Q :=
  follows_of_ends fun _ le _ => ends_pure ⟨rfl, h _ le⟩

/-- A failure that names no variable follows no application. -/
theorem follows_throw {failure : Failure} (h : failure.AllVariables fun _ => False) :
    Follows n (throw failure : Eval α) .none Q :=
  follows_of_ends fun _ _ _ => ends_throw ⟨rfl, h⟩

/-- A refusal names no variable. -/
theorem follows_refuse {cause : EvaluationCause} {token : Option Token} :
    Follows n (refuse cause token : Eval α) .none Q :=
  follows_throw fun _ found => by cases found

/-- What does not look at the state makes no application. -/
theorem follows_attempt (x : Except Obstacle α) : Follows n (attempt x) .none fun _ _ => True :=
  follows_of_ends fun _ _ _ => ends_attempt (fun _ _ => ⟨rfl, trivial⟩) fun _ => ⟨rfl, trivial⟩

/-- To write an expression out makes no application. -/
theorem follows_requireText (room : Room) (style : Style) (e : Expr) :
    Follows n (requireText room style e) .none fun _ _ => True :=
  follows_of_ends fun _ _ _ => ends_requireText ⟨rfl, trivial⟩ fun _ => ⟨rfl, trivial⟩

/-- A step one level further down meets what the step itself meets, if there is room for it. -/
theorem follows_nested {step : Room → Eval α} {inner : Room → Trail Application}
    (h : ∀ room, Follows n (step room) (inner room) Q) :
    Follows n (room.nested (throw (.obstacle .tooDeep)) step) (room.nested .none inner) Q := by
  refine room.nested_rel (R := fun x y => Follows n x y Q) ?_ h
  exact follows_throw trivial

/-- What is looked up was bound before. -/
theorem follows_lookup (x : Expr) :
    Follows n (lookup x) .none fun m value => ∀ v ∈ value, v.IsBefore m := by
  refine follows_of_ends fun s _ hs => ends_lookup (fun value found => ⟨rfl, ?_⟩)
    fun _ => ⟨rfl, trivial⟩
  rintro v rfl
  obtain ⟨-, -, -, old⟩ := hs.of_lookup found
  exact old

/-- The applications of a computation are those of its first part, and then those of what is made
of its result. -/
theorem Follows.bind {x : Eval α} {f : α → Eval β} {next : α → Trail Application}
    (h : Follows n x own Q)
    (later : ∀ m a, n ≤ m → Q m a → Follows m (f a) (next a) R) :
    Follows n (x >>= f) (.bind x own next) R := by
  intro s le hs
  obtain ⟨ended, chained⟩ := h s le hs
  rcases result : x s with ⟨e | a, t⟩
  · rw [result] at chained
    rw [Trail.bind_of_error result, Ends, bind_of_error result]
    exact ⟨ended.of_error result, chained⟩
  · obtain ⟨kept, property⟩ := ended.of_ok result
    rw [result] at chained
    obtain ⟨ended', chained'⟩ := later t.anonymous a (le.trans chained.le) property t le_rfl kept
    rw [Trail.bind_of_ok result, Ends, bind_of_ok result]
    exact ⟨ended', chained.append chained'⟩

/-- A computation that goes on without any application has those of its first part. -/
theorem Follows.bind_none {x : Eval α} {f : α → Eval β} (h : Follows n x own Q)
    (later : ∀ m a, n ≤ m → Q m a → Follows m (f a) .none R) : Follows n (x >>= f) own R := by
  rw [← Trail.bind_none x own]
  exact h.bind later

/-- A change of the environment makes no application if it binds known names to known values. -/
theorem follows_update {f : Environment Expr → Except Obstacle (Environment Expr)}
    (h : ∀ m env env', n ≤ m → env.AllBindings (fun x v => x.IsBefore m ∧ v.IsBefore m) →
      f env = .ok env' → env'.AllBindings fun x v => x.IsBefore m ∧ v.IsBefore m) :
    Follows n (update f) .none fun _ _ => True := by
  intro s le hs
  cases changed : f s.environment with
  | error o =>
    rw [Ends, update_of_error changed]
    exact ⟨⟨hs, trivial⟩, .nil⟩
  | ok env =>
    rw [Ends, update_of_ok changed]
    exact ⟨⟨h _ _ _ le hs changed, trivial⟩, .nil⟩

/-- A binding of a known name to a known value makes no application. -/
theorem follows_bind {x value : Expr} (hx : x.IsBefore n) (hv : value.IsBefore n) :
    Follows n (bind x value) .none fun _ _ => True :=
  follows_update fun _ _ _ le all changed => all.set ⟨hx.mono le, hv.mono le⟩ changed

/-- The applications of a call are those of the body. -/
theorem follows_inScope {bindings : List (Expr × Expr)} {action : Eval α}
    (all : ∀ b ∈ bindings, b.1.IsBefore n ∧ b.2.IsBefore n) (h : Follows n action own Q) :
    Follows n (inScope room bindings action) (.inScope bindings own) Q := by
  intro s le hs
  have bound : Follows n (update (·.setAll bindings)) .none fun _ _ => True :=
    follows_update fun _ _ _ le kept changed =>
      kept.setAll (fun b hb => ⟨(all b hb).1.mono le, (all b hb).2.mono le⟩) changed
  obtain ⟨ended, chained⟩ := bound.bind (fun _ _ le _ => h.mono le)
    { s with environment := s.environment.push } le hs.push
  refine ⟨?_, ?_⟩
  · refine ends_between_unless
      (fun state : Evaluator => { state with environment := state.environment.push })
      (fun state => { state with environment := state.environment.leave }) ?_
    refine ended.mono (fun _ _ h => ⟨h.1.leave, h.2⟩) fun _ _ h => ⟨⟨h.1.leave, h.2⟩, fun _ _ => h⟩
  · -- the counter is the same whether the scope was closed or not
    show Chained _ _ (Evaluator.anonymous (if _ then _ else _))
    split
    · exact chained
    · exact chained

/-! ## Operators and calls -/

/-- A sign makes no application, and its result holds the names of the operand at most. -/
theorem follows_signed {op : Operator} {operand : Expr} {token : Option Token}
    (h : operand.IsBefore n) :
    Follows n (signed op operand token) .none fun m v => v.IsBefore m := by
  cases operand with
  | number text t =>
    exact (follows_attempt _).bind_none fun _ _ _ _ => follows_pure fun _ _ => .number
  | function => exact follows_refuse
  | _ => exact follows_pure fun _ le => .unary (h.mono le)

/-- An operation makes no application, and its result holds the names of its operands at most. -/
theorem follows_operation {op : Operator} {lhs rhs : Expr} {token : Option Token}
    (left : lhs.IsBefore n) (right : rhs.IsBefore n) :
    Follows n (operation op lhs rhs token) .none fun m v => v.IsBefore m := by
  have kept : ∀ m, n ≤ m → (Expr.binary op lhs rhs token).IsBefore m := fun _ le =>
    .binary (left.mono le) (right.mono le)
  unfold operation
  split
  · exact follows_refuse
  · split
    · exact follows_pure kept
    · refine (follows_attempt _).bind_none fun m result le _ => ?_
      cases result with
      | some text => exact follows_pure fun _ _ => .number
      | none => exact follows_pure fun _ le' => kept _ (le.trans le')
    · exact follows_pure kept

/-- A partial application is met where it is carried out. -/
theorem follows_curry {f : Function} {arguments : List Expr} {token : Option Token}
    (function : f.IsBefore n) (values : ∀ v ∈ arguments, v.IsBefore n) :
    Follows n (curry room f arguments token) (fun s => [⟨f, arguments, token, s⟩])
      fun m v => v.IsBefore m := by
  intro s le hs
  let a : Application := ⟨f, arguments, token, s⟩
  have known : a.IsKnown := ⟨function.mono le, fun v hv => (values v hv).mono le⟩
  refine ⟨(a.ends_curry room).mono ?_ ?_, ?_⟩
  · rintro _ t ⟨same, counts, g, built, rfl⟩
    exact ⟨hs.moved same counts.le,
      Function.allVariables_toExpr.2 (known.isBefore_of_builds built)⟩
  · rintro _ t ⟨⟨o, rfl⟩, same, counts⟩
    exact ⟨hs.moved same counts.le, trivial⟩
  · show Chained _ _ (curry room a.function a.arguments a.token a.state).2.anonymous
    rw [a.counter_eq room]
    exact .cons known .nil

variable {body : Room → Expr → Eval Expr} {inner : Room → Expr → Trail Application}

/-- A call makes the applications that are listed for it: those of the body or, if arguments are
missing, the one that it is itself. -/
theorem follows_apply
    (called : ∀ n room (e : Expr), e.IsBefore n →
      Follows n (body room e) (inner room e) fun m v => v.IsBefore m)
    {callee : Expr} {arguments : List Expr} {token : Option Token} (hc : callee.IsBefore n)
    (values : ∀ v ∈ arguments, v.IsBefore n) :
    Follows n (apply body room callee arguments token)
      (applicationsOfCall inner room callee arguments token) fun m v => v.IsBefore m := by
  refine (follows_lookup callee).bind fun m value le old => ?_
  have values : ∀ v ∈ arguments, v.IsBefore m := fun v hv => (values v hv).mono le
  cases function : value.bind function? with
  | none =>
    exact follows_pure fun _ le' =>
      .call (hc.mono (le.trans le')) fun v hv => (values v hv).mono le'
  | some f =>
    obtain ⟨e, rfl, hf⟩ := Option.bind_eq_some_iff.1 function
    obtain rfl := eq_toExpr_of_function? hf
    have known := Function.allVariables_toExpr.1 (old _ rfl)
    dsimp only
    split
    · exact follows_refuse
    · split
      · exact follows_inScope (fun b hb => ⟨known.all _ (List.of_mem_zip hb).1,
          values _ (List.of_mem_zip hb).2⟩) (called m _ _ known.inner)
      · exact follows_curry known values

/-! ## Expressions -/

/-- A definition makes no application, for the value of its right side is at hand. -/
theorem follows_define {target value : Expr} {token : Option Token} (ht : target.IsBefore n)
    (hv : value.IsBefore n) :
    Follows n (define room target value token) .none fun m v => v.IsBefore m := by
  unfold define
  split
  · next f function =>
    obtain rfl := eq_toExpr_of_function? function
    have known := Function.allVariables_toExpr.1 hv
    have renamed : (f.renamed target).toExpr.IsBefore n :=
      Function.allVariables_toExpr.2 ⟨ht, known.all, known.inner, known.supplied, known.values⟩
    exact (follows_bind ht renamed).bind_none fun _ _ le _ =>
      follows_pure fun _ le' => renamed.mono (le.trans le')
  · exact (follows_bind ht hv).bind_none fun _ _ le _ =>
      (follows_requireText _ _ _).bind_none fun _ _ le' _ =>
        (follows_requireText _ _ _).bind_none fun _ _ le'' _ => follows_pure fun _ le''' =>
          have le := ((le.trans le').trans le'').trans le'''
          .binding (ht.mono le) (hv.mono le)

/-- The applications of a list are those of its expressions, one after the other. -/
theorem follows_evaluateAllWith {es : List Expr}
    (all : ∀ e ∈ es, Follows n (evaluateWith body room e) (applicationsWith body inner room e)
      fun m v => v.IsBefore m) :
    Follows n (evaluateAllWith body room es) (applicationsAllWith body inner room es)
      fun m vs => ∀ v ∈ vs, v.IsBefore m := by
  induction es generalizing n with
  | nil =>
    rw [evaluateAllWith, applicationsAllWith]
    exact follows_pure fun _ _ _ h => (List.not_mem_nil h).elim
  | cons e es ih =>
    obtain ⟨first, others⟩ := List.forall_mem_cons.1 all
    rw [evaluateAllWith, applicationsAllWith]
    refine first.bind fun m v le hv =>
      (ih fun e he => (others e he).mono le).bind_none fun m' vs le' hvs =>
        follows_pure fun k le'' => List.forall_mem_cons.2 ⟨hv.mono (le'.trans le''), ?_⟩
    exact fun w hw => (hvs w hw).mono le''

/-- An evaluation meets its partial applications if the evaluations of bodies meet theirs. -/
theorem follows_evaluateWith
    (called : ∀ n room (e : Expr), e.IsBefore n →
      Follows n (body room e) (inner room e) fun m v => v.IsBefore m)
    {e : Expr} (h : e.IsBefore n) :
    Follows n (evaluateWith body room e) (applicationsWith body inner room e) fun m v =>
      v.IsBefore m := by
  induction h generalizing room with
  | number =>
    rw [evaluateWith, applicationsWith]
    exact follows_nested fun room => follows_pure fun _ _ => .number
  | @var name subscripts token itself all =>
    have self : (Expr.var name subscripts token).IsBefore n := .var itself all
    rw [evaluateWith, applicationsWith]
    refine follows_nested fun room =>
      (follows_lookup _).bind_none fun m value le old => follows_pure fun k le' => ?_
    cases value with
    -- a free variable is its own value, and a bound one was there before
    | none => exact self.mono (le.trans le')
    | some v => exact (old v rfl).mono le'
  | unary _ operand =>
    rw [evaluateWith, applicationsWith]
    exact follows_nested fun room => operand.bind_none fun _ _ _ hv => follows_signed hv
  | binary _ _ left right =>
    rw [evaluateWith, applicationsWith]
    exact follows_nested fun room =>
      left.bind fun _ _ le hv => (right.mono le).bind_none fun _ _ le' hw =>
        follows_operation (hv.mono le') hw
  | group _ all =>
    rw [evaluateWith, applicationsWith]
    exact follows_nested fun room =>
      (follows_evaluateAllWith fun e he => all e he).bind_none fun _ _ _ hvs =>
        follows_pure fun _ le => .group fun v hv => (hvs v hv).mono le
  | command _ all =>
    rw [evaluateWith, applicationsWith]
    exact follows_nested fun room =>
      (follows_evaluateAllWith fun e he => all e he).bind_none fun _ _ _ hvs =>
        follows_pure fun _ le => .command fun v hv => (hvs v hv).mono le
  | block _ all =>
    rw [evaluateWith, applicationsWith]
    exact follows_nested fun room =>
      (follows_evaluateAllWith fun e he => all e he).bind_none fun _ _ _ hvs =>
        follows_pure fun _ le => .block fun v hv => (hvs v hv).mono le
  | prototype =>
    rw [evaluateWith, applicationsWith]
    exact follows_nested fun room => follows_refuse
  | @function form name parameters head inner closed token named all known supplied values =>
    have self : (Expr.function form name parameters head inner closed token).IsBefore n :=
      .function named all known supplied values
    rw [evaluateWith, applicationsWith]
    exact follows_nested fun room => (follows_bind named self).bind_none fun _ _ le _ =>
      (follows_requireText _ _ _).bind_none fun _ _ le' _ =>
        follows_pure fun _ le'' => self.mono ((le.trans le').trans le'')
  | call callee _ _ all =>
    rw [evaluateWith, applicationsWith]
    exact follows_nested fun room =>
      (follows_evaluateAllWith fun e he => all e he).bind fun _ _ le hvs =>
        follows_apply called (IsBefore.mono callee le) hvs
  | binding target _ _ value =>
    rw [evaluateWith, applicationsWith]
    exact follows_nested fun room =>
      value.bind_none fun _ _ le hv => follows_define (IsBefore.mono target le) hv

/-- The applications of an evaluation are those that are listed for the expression, at every depth.
-/
theorem follows_evaluateWithin (depth : Nat) (room : Room) {e : Expr} (h : e.IsBefore n) :
    Follows n (evaluateWithin depth room e) (applicationsWithin depth room e)
      fun m v => v.IsBefore m := by
  induction depth generalizing n room e with
  | zero => exact follows_throw trivial
  | succ depth ih => exact follows_evaluateWith (fun _ room _ => ih room) h

/-- The partial applications on the way of a statement count through the fresh names that it makes,
and all that it binds and returns mentions none but those and older ones. -/
theorem follows_evaluate {e : Expr} (h : e.IsBefore n) :
    Follows n (evaluate e) (applications e) fun m v => v.IsBefore m :=
  (follows_evaluateWithin maxLevels (.levels maxLevels) h).bind_none fun _ _ _ hv =>
    (follows_requireText _ _ _).bind_none fun _ _ le _ =>
      (follows_requireText _ _ _).bind_none fun _ _ le' _ =>
        follows_pure fun _ le'' => hv.mono ((le.trans le').trans le'')

end Evaluation

end TexAlgebra
