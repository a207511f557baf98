import TexAlgebra.Proofs.Evaluation.Results
import TexAlgebra.Proofs.Sourced.Environment
/-!
# Evaluations of a session

Evaluation keeps to expressions from the texts of a session: what it binds and what it returns comes
from them if the bindings before it and the evaluated expression do. Its faults blame tokens of the
texts, and its obstacles are calls that are nested too deeply and numbers
(`Evaluation.sources_evaluate`).
-/

namespace TexAlgebra

variable {S : Token → Prop}

/-- Whether all bindings come from texts. -/
def Evaluator.IsSourced (S : Token → Prop) (s : Evaluator) : Prop :=
  s.environment.IsSourced S (Expr.IsSourced S)

namespace Evaluation

open TexAlgebra.Expr

variable {α β : Type} {Q : α → Prop} {R : β → Prop} {room : Room}

/-- Whether an evaluation keeps to the texts with all that it binds, has a result with the property
`Q`, and fails for the texts alone. -/
abbrev Sources (S : Token → Prop) (x : Eval α) (Q : α → Prop) : Prop :=
  TexAlgebra.Sources S (Evaluator.IsSourced S) x Q

/-- A refusal cites a token of the texts. -/
theorem sources_refuse {cause : EvaluationCause} {token : Option Token} (h : IsPlaced S token) :
    Sources S (refuse cause token : Eval α) Q :=
  sources_throw h

/-- What fails only for a number of the texts keeps to them. -/
theorem sources_attempt {x : Except Obstacle α}
    (h : FailsWith (Obstacle.IsOfNumber (numbersOf S)) x) :
    Sources S (attempt x) fun a => x = .ok a := by
  intro s hs
  cases x with
  | error o => exact ends_throw ⟨hs, .inr (h o rfl)⟩
  | ok a => exact ends_pure ⟨hs, rfl⟩

/-- To write an expression out fails only for a number of the texts. -/
theorem sources_requireText (room : Room) (style : Style) {e : Expr} (h : e.IsSourced S) :
    Sources S (requireText room style e) fun _ => True := by
  have written : Sources S (attempt (e.texWithin room style)) fun _ => True := by
    intro s hs
    cases result : e.texWithin room style with
    | error o => exact ends_throw ⟨hs, h.failsWith_texWithin room style o result⟩
    | ok text => exact ends_pure ⟨hs, trivial⟩
  exact written.bind fun _ _ => sources_pure trivial

/-- A lookup finds what comes from the texts. -/
theorem sources_lookup {x : Expr} (hx : x.IsSourced S) :
    Sources S (lookup x) fun value => ∀ v ∈ value, v.IsSourced S := by
  intro s hs
  refine (sources_attempt (Environment.IsSourced.failsWith_lookup hs hx) s hs).mono
    (fun value t found => ⟨found.1, ?_⟩) fun _ _ h => h
  rintro v rfl
  exact Environment.IsSourced.of_lookup hs found.2

/-- A binding of what comes from the texts keeps to them. -/
theorem sources_bind {x value : Expr} (hx : x.IsSourced S) (hv : value.IsSourced S) :
    Sources S (bind x value) fun _ => True := by
  intro s hs
  cases changed : s.environment.set x value with
  | error o =>
    rw [Ends, bind, update_of_error changed]
    exact ⟨hs, .inr (Environment.IsSourced.failsWith_set hs hx o changed)⟩
  | ok env =>
    rw [Ends, bind, update_of_ok changed]
    exact ⟨Environment.IsSourced.set hs hx hv changed, trivial⟩

/-- A scope of bindings that come from the texts keeps to them. -/
theorem sources_inScope {bindings : List (Expr × Expr)} {action : Eval α}
    (all : ∀ b ∈ bindings, b.1.IsSourced S ∧ b.2.IsSourced S) (h : Sources S action Q) :
    Sources S (inScope room bindings action) Q := by
  intro s hs
  have pushed : s.environment.push.IsSourced S (Expr.IsSourced S) := Environment.IsSourced.push hs
  have left : ∀ t : Evaluator, t.IsSourced S →
      ({ t with environment := t.environment.leave } : Evaluator).IsSourced S :=
    fun t ht => Environment.IsSourced.leave ht
  have inner : Sources S (do update (·.setAll bindings); action : Eval α) Q := by
    refine TexAlgebra.Sources.bind (Q := fun _ => True) (fun t ht => ?_) fun _ _ => h
    cases changed : t.environment.setAll bindings with
    | error o =>
      rw [Ends, update_of_error changed]
      exact ⟨ht, .inr (Environment.IsSourced.failsWith_setAll ht all o changed)⟩
    | ok env =>
      rw [Ends, update_of_ok changed]
      exact ⟨Environment.IsSourced.setAll ht all changed, trivial⟩
  refine ends_between_unless
    (fun state : Evaluator => { state with environment := state.environment.push })
    (fun state => { state with environment := state.environment.leave }) ?_
  exact (inner { s with environment := s.environment.push } pushed).mono
    (fun _ t h => ⟨left t h.1, h.2⟩) fun _ t h => ⟨⟨left t h.1, h.2⟩, fun _ _ => h⟩

/-! ## Operators -/

/-- A sign gives a number that is computed from one of the texts, or stays. -/
theorem sources_signed {op : Operator} {operand : Expr} {token : Option Token}
    (sign : op.isSign = true) (h : operand.IsSourced S) (placed : IsPlaced S token) :
    Sources S (signed op operand token) (Expr.IsSourced S) := by
  cases h with
  | number written _ =>
    refine (sources_attempt (Numeral.failsWith_signed sign written)).bind fun text result => ?_
    exact sources_pure (.number (.signed written result) (placed.orElse _))
  | function => exact sources_refuse placed
  | var nonempty all placed' => exact sources_pure (.unary sign (.var nonempty all placed') placed)
  | unary sign' inner placed' =>
    exact sources_pure (.unary sign (.unary sign' inner placed') placed)
  | binary left right placed' =>
    exact sources_pure (.unary sign (.binary left right placed') placed)
  | group all placed' => exact sources_pure (.unary sign (.group all placed') placed)
  | command nonempty all placed' =>
    exact sources_pure (.unary sign (.command nonempty all placed') placed)
  | block all placed' => exact sources_pure (.unary sign (.block all placed') placed)
  | prototype named all placed' =>
    exact sources_pure (.unary sign (.prototype named all placed') placed)
  | call called all placed' => exact sources_pure (.unary sign (.call called all placed') placed)
  | binding bound inner placed' =>
    exact sources_pure (.unary sign (.binding bound inner placed') placed)

/-- An operation gives a number that is computed from numbers of the texts, or stays. -/
theorem sources_operation {op : Operator} {lhs rhs : Expr} {token : Option Token}
    (left : lhs.IsSourced S) (right : rhs.IsSourced S) (placed : IsPlaced S token) :
    Sources S (operation op lhs rhs token) (Expr.IsSourced S) := by
  unfold operation
  split
  · exact sources_refuse placed
  · split
    · exact sources_pure (.binary left right placed)
    · next a t b u computes _ =>
      cases left with
      | number computed placed_l =>
        cases right with
        | number computed' placed_r =>
          refine (sources_attempt (Numeral.failsWith_combined computes computed computed')).bind
            fun result combined => ?_
          cases result with
          | none =>
            exact sources_pure (.binary (.number computed placed_l) (.number computed' placed_r)
              placed)
          | some text =>
            exact sources_pure (.number (.combined computed computed' combined) (placed.orElse _))
    · exact sources_pure (.binary left right placed)

/-! ## Calls -/

/-- A fresh name stands where its parameter does. -/
theorem sources_freshName {token : Option Token} (placed : IsPlaced S token) :
    Sources S (freshName token) (Expr.IsSourced S) := by
  refine fun s hs => ⟨hs, .var ?_ (fun _ h => (List.not_mem_nil h).elim) placed⟩
  simp

/-- New names for parameters stand where the parameters do. -/
theorem sources_freshParameters {arguments parameters : List Expr}
    (values : ∀ a ∈ arguments, a.IsSourced S) (all : ∀ p ∈ parameters, p.IsSourced S) :
    Sources S (freshParameters arguments parameters)
      fun remaining => ∀ r ∈ remaining, r.1.IsSourced S ∧ ∀ q ∈ r.2, q.IsSourced S := by
  induction parameters with
  | nil => exact sources_pure fun _ h => (List.not_mem_nil h).elim
  | cons p ps ih =>
    obtain ⟨first, others⟩ := List.forall_mem_cons.1 all
    refine (sources_attempt (first.failsWith_occursInAny values)).bind fun taken _ => ?_
    have later : ∀ name : Option Expr, (∀ q ∈ name, q.IsSourced S) →
        Sources S
          (do
            let rest ← freshParameters arguments ps
            return (p, name) :: rest)
          fun remaining => ∀ r ∈ remaining, r.1.IsSourced S ∧ ∀ q ∈ r.2, q.IsSourced S :=
      fun name hn => (ih others).bind fun rest hr =>
        sources_pure (List.forall_mem_cons.2 ⟨⟨first, hn⟩, hr⟩)
    cases taken with
    | false => exact later none fun _ h => by cases h
    | true =>
      have named : Sources S (some <$> freshName p.token) fun q => ∀ v ∈ q, v.IsSourced S := by
        refine (sources_freshName first.placed).bind fun name hn => sources_pure ?_
        rintro _ ⟨⟩
        exact hn
      exact named.bind later

/-- What is left of a function comes from it and from the arguments. -/
theorem sources_curry {f : Function} {arguments : List Expr} {token : Option Token}
    (hf : f.IsSourced S) (values : ∀ a ∈ arguments, a.IsSourced S) (placed : IsPlaced S token) :
    Sources S (curry room f arguments token) (Expr.IsSourced S) := by
  refine (sources_freshName placed).bind fun name named => ?_
  have dropped : ∀ p ∈ f.parameters.drop arguments.length, p.IsSourced S :=
    fun p hp => hf.all p (List.mem_of_mem_drop hp)
  refine (sources_freshParameters values dropped).bind fun remaining renamed => ?_
  have closure : Function.IsSourced S
      { form := .curried, name := name, parameters := remaining.map fun r => r.2.getD r.1,
        head := token,
        body := f.body.substitute (f.parameters.zip arguments ++
          remaining.filterMap fun r => r.2.map (r.1, ·)),
        closed := f.closed ++ f.parameters.zip arguments, token := token } := by
    refine ⟨named, ?_, placed, hf.inner.substitute ?_, placed⟩
    · refine List.forall_mem_map.2 ?_
      rintro ⟨p, q⟩ hr
      cases q with
      | none => exact (renamed _ hr).1
      | some q => exact (renamed _ hr).2 q rfl
    · intro b hb
      rcases List.mem_append.1 hb with hb | hb
      · exact values _ (List.of_mem_zip hb).2
      · obtain ⟨⟨p, q⟩, hr, eq⟩ := List.mem_filterMap.1 hb
        obtain ⟨v, rfl, rfl⟩ := Option.map_eq_some_iff.1 eq
        exact (renamed _ hr).2 v rfl
  have closure := Function.isSourced_toExpr.2 closure
  exact (sources_requireText _ .display (.prototype hf.named hf.all hf.headed)).bind fun _ _ =>
    (sources_requireText _ .oneLine closure).bind fun _ _ => sources_pure closure

section

variable {body : Room → Expr → Eval Expr}
  (called : ∀ (room : Room) (e : Expr), e.IsSourced S → Sources S (body room e) (Expr.IsSourced S))

include called

/-- A call gives what comes from the function and from the arguments. -/
theorem sources_apply {callee : Expr} {arguments : List Expr} {token : Option Token}
    (hc : callee.IsSourced S) (values : ∀ a ∈ arguments, a.IsSourced S)
    (placed : IsPlaced S token) :
    Sources S (apply body room callee arguments token) (Expr.IsSourced S) := by
  refine (sources_lookup hc).bind fun value found => ?_
  cases function : value.bind function? with
  | none => exact sources_pure (.call hc values placed)
  | some f =>
    obtain ⟨e, rfl, hf⟩ := Option.bind_eq_some_iff.1 function
    obtain rfl := eq_toExpr_of_function? hf
    have sourced := Function.isSourced_toExpr.1 (found _ rfl)
    simp only
    split
    · exact sources_refuse placed
    · split
      · refine sources_inScope (fun b hb => ?_) (called _ _ sourced.inner)
        exact ⟨sourced.all _ (List.of_mem_zip hb).1, values _ (List.of_mem_zip hb).2⟩
      · exact sources_curry sourced values placed

end

/-! ## Expressions -/

/-- A definition of what comes from the texts keeps to them. -/
theorem sources_define {target value : Expr} {token : Option Token} (ht : target.IsSourced S)
    (hv : value.IsSourced S) (placed : IsPlaced S token) :
    Sources S (define room target value token) (Expr.IsSourced S) := by
  unfold define
  split
  · next f function =>
    obtain rfl := eq_toExpr_of_function? function
    have hf := Function.isSourced_toExpr.1 hv
    have renamed : (f.renamed target).toExpr.IsSourced S :=
      Function.isSourced_toExpr.2 ⟨ht, hf.all, hf.headed, hf.inner, hf.placed⟩
    exact (sources_bind ht renamed).bind fun _ _ => sources_pure renamed
  · exact (sources_bind ht hv).bind fun _ _ =>
      (sources_requireText _ .display ht).bind fun _ _ =>
        (sources_requireText _ .oneLine hv).bind fun _ _ => sources_pure (.binding ht hv placed)

variable {body : Room → Expr → Eval Expr}

/-- The expressions of a list keep to the texts, one after the other. -/
theorem sources_evaluateAllWith {es : List Expr}
    (all : ∀ e ∈ es, Sources S (evaluateWith body room e) (Expr.IsSourced S)) :
    Sources S (evaluateAllWith body room es) fun vs => ∀ v ∈ vs, v.IsSourced S := by
  induction es with
  | nil =>
    rw [evaluateAllWith]
    exact sources_pure fun _ h => (List.not_mem_nil h).elim
  | cons e es ih =>
    rw [evaluateAllWith]
    exact (all e List.mem_cons_self).bind fun v hv =>
      (ih fun e he => all e (List.mem_cons_of_mem _ he)).bind fun vs hvs =>
        sources_pure (List.forall_mem_cons.2 ⟨hv, hvs⟩)

/-- An expression of the texts keeps to them, with the bodies of functions given. -/
theorem sources_evaluateWith
    (called : ∀ (room : Room) (e : Expr),
      e.IsSourced S → Sources S (body room e) (Expr.IsSourced S)) {e : Expr}
    (h : e.IsSourced S) : Sources S (evaluateWith body room e) (Expr.IsSourced S) := by
  induction h generalizing room with
  | number written placed =>
    rw [evaluateWith]
    exact sources_nested fun room => sources_pure (.number written placed)
  | var nonempty subscripts placed _ =>
    have self := IsSourced.var nonempty subscripts placed
    rw [evaluateWith]
    refine sources_nested fun room => (sources_lookup self).bind fun value found => sources_pure ?_
    cases value with
    | none => exact self
    | some v => exact found v rfl
  | unary sign _ placed inner =>
    rw [evaluateWith]
    exact sources_nested fun room => inner.bind fun v hv => sources_signed sign hv placed
  | binary _ _ placed left right =>
    rw [evaluateWith]
    exact sources_nested fun room =>
      left.bind fun v hv => right.bind fun w hw => sources_operation hv hw placed
  | group _ placed all =>
    rw [evaluateWith]
    exact sources_nested fun room =>
      (sources_evaluateAllWith fun e he => all e he).bind fun vs hvs =>
        sources_pure (.group hvs placed)
  | command nonempty _ placed all =>
    rw [evaluateWith]
    exact sources_nested fun room =>
      (sources_evaluateAllWith fun e he => all e he).bind fun vs hvs =>
        sources_pure (.command nonempty hvs placed)
  | block _ placed all =>
    rw [evaluateWith]
    exact sources_nested fun room =>
      (sources_evaluateAllWith fun e he => all e he).bind fun vs hvs =>
        sources_pure (.block hvs placed)
  | prototype _ _ placed =>
    rw [evaluateWith]
    exact sources_nested fun room => sources_refuse placed
  | @function form name parameters head inner closed token named all headed sourced placed =>
    have self : IsSourced S (.function form name parameters head inner closed token) :=
      .function named all headed sourced placed
    rw [evaluateWith]
    exact sources_nested fun room => (sources_bind named self).bind fun _ _ =>
      (sources_requireText _ .display (.prototype named all headed)).bind fun _ _ =>
        sources_pure self
  | call hc _ placed _ all =>
    rw [evaluateWith]
    exact sources_nested fun room =>
      (sources_evaluateAllWith fun e he => all e he).bind fun vs hvs =>
        sources_apply called hc hvs placed
  | binding target _ placed _ value =>
    rw [evaluateWith]
    exact sources_nested fun room => value.bind fun v hv => sources_define target hv placed

/-- An expression of the texts keeps to them, however deep its evaluation goes. -/
theorem sources_evaluateWithin (depth : Nat) (room : Room) {e : Expr} (h : e.IsSourced S) :
    Sources S (evaluateWithin depth room e) (Expr.IsSourced S) := by
  induction depth generalizing room e with
  | zero => exact sources_throw (.inl rfl)
  | succ depth ih => exact sources_evaluateWith (fun room _ => ih room) h

/-- The evaluation of a statement from the texts of a session keeps to them. -/
theorem sources_evaluate {e : Expr} (h : e.IsSourced S) :
    Sources S (evaluate e) (Expr.IsSourced S) :=
  (sources_evaluateWithin maxLevels (.levels maxLevels) h).bind fun _ hv =>
    (sources_requireText _ .oneLine h).bind fun _ _ =>
      (sources_requireText _ .oneLine hv).bind fun _ _ => sources_pure hv

end Evaluation

end TexAlgebra
