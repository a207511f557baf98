import TexAlgebra.Proofs.Sourced.Environment
import TexAlgebra.Proofs.Typing.Results
/-!
# Checks of a session

Checking keeps to expressions from the texts of a session, as evaluation does: the functions that a
classification holds come from them, and so do the faults (`Typing.sources_check`).
-/

namespace TexAlgebra

variable {S : Token → Prop}

/-- The classifications that a session over the tokens `S` can have. -/
inductive Classification.IsSourced (S : Token → Prop) : Classification → Prop
  | number {node : Expr} : IsSourced S (.number node)
  | symbolic {node : Expr} : IsSourced S (.symbolic node)
  | unknown {node : Expr} : IsSourced S (.unknown node)
  | function {f : Function} {bound : List (Expr × Classification)} (sourced : f.IsSourced S)
      (keys : ∀ b ∈ bound, b.1.IsSourced S) (values : ∀ b ∈ bound, IsSourced S b.2) :
    IsSourced S (.function f bound)

namespace Typing

open Classification

variable {α : Type} {Q : α → Prop} {room : Room}

/-- Whether a check keeps to the texts with all that it binds, has a result with the property `Q`,
and fails for the texts alone. -/
abbrev Sources (S : Token → Prop) (x : Check α) (Q : α → Prop) : Prop :=
  TexAlgebra.Sources S (Environment.IsSourced S (IsSourced S)) x Q

/-- A refusal cites a token of the texts. -/
theorem sources_refuse {cause : TypeCause} {token : Option Token} (h : IsPlaced S token) :
    Sources S (refuse cause token : Check α) Q :=
  sources_throw h

theorem sources_attempt {x : Except Obstacle α}
    (h : FailsWith (Obstacle.IsOfNumber (numbersOf S)) x) :
    Sources S (attempt x) fun a => x = .ok a := by
  intro s hs
  cases x with
  | error o => exact ends_throw ⟨hs, .inr (h o rfl)⟩
  | ok a => exact ends_pure ⟨hs, rfl⟩

/-- A lookup finds what comes from the texts. -/
theorem sources_lookup {x : Expr} (hx : x.IsSourced S) :
    Sources S (lookup x) fun value => ∀ c ∈ value, c.IsSourced S := by
  intro types ht
  have looked := sources_attempt (S := S) (ht.failsWith_lookup hx) types ht
  refine looked.mono (fun value t found => ⟨found.1, ?_⟩) fun _ _ h => h
  rintro c rfl
  exact ht.of_lookup found.2

theorem sources_bind {x : Expr} {c : Classification} (hx : x.IsSourced S) (hc : c.IsSourced S) :
    Sources S (bind x c) fun _ => True := by
  intro types ht
  have changed := sources_attempt (S := S) (ht.failsWith_set (a := c) hx) types ht
  exact changed.bind fun env t made => ⟨ht.set hx hc made.2, trivial⟩

/-- A scope of bindings that come from the texts keeps to them. -/
theorem sources_inScope {bindings : List (Expr × Classification)} {action : Check α}
    (all : ∀ b ∈ bindings, b.1.IsSourced S ∧ b.2.IsSourced S) (h : Sources S action Q) :
    Sources S (inScope room bindings action) Q := by
  intro types ht
  have changed := sources_attempt (S := S) (ht.push.failsWith_setAll all) types.push ht.push
  have inner : Ends (do set (← attempt (types.push.setAll bindings)); action) types.push
      (fun a t => t.IsSourced S (IsSourced S) ∧ Q a)
      fun failure t => t.IsSourced S (IsSourced S) ∧ failure.IsSourced S :=
    changed.bind fun env t made => h env (ht.push.setAll all made.2)
  exact ends_between_unless _ _ (inner.mono (fun _ _ h => ⟨h.1.leave, h.2⟩)
    fun _ _ h => ⟨⟨h.1.leave, h.2⟩, fun _ _ => h⟩)

/-- The last of some classifications comes from the texts. -/
theorem sources_lastOf {token : Option Token} {cs : List Classification}
    (placed : IsPlaced S token) (all : ∀ c ∈ cs, c.IsSourced S) :
    Sources S (lastOf token cs) (IsSourced S) := by
  unfold lastOf
  split
  · next c last => exact sources_pure (all c (List.mem_of_getLast? last))
  · exact sources_refuse placed

/-- To ask for an operand cites its token. -/
theorem sources_requireOperand {operand : Expr} (c : Classification) {token : Option Token}
    (h : operand.IsSourced S) : Sources S (requireOperand operand c token) fun _ => True := by
  unfold requireOperand
  split
  · exact sources_refuse (h.placed.orElse token)
  · exact sources_pure trivial

/-- A sign comes from the texts where its operand does. -/
theorem sources_signed {node operand : Expr} (c : Classification) (h : operand.IsSourced S) :
    Sources S (signed node operand c) (IsSourced S) := by
  cases c with
  | number => exact sources_pure .number
  | symbolic => exact sources_pure .symbolic
  | _ => exact sources_refuse (h.placed.orElse _)

/-- What can be called comes from the texts. -/
theorem sources_callable {given : Nat} {token : Option Token} {c : Classification}
    (placed : IsPlaced S token) (h : c.IsSourced S) :
    Sources S (callable given token c) fun r => IsSourced S (.function r.1 r.2) := by
  obtain ⟨f, bound, rfl, -, eq⟩ | ⟨f, bound, -, -, eq⟩ | eq := callable_cases given token c
  · exact eq ▸ sources_pure h
  · exact eq ▸ sources_refuse placed
  · exact eq ▸ sources_refuse placed

variable {body : Room → Expr → Check Classification}

/-- The expressions of a list keep to the texts, one after the other. -/
theorem sources_classifyAllWith {es : List Expr}
    (all : ∀ e ∈ es, Sources S (classifyWith body room e) (IsSourced S)) :
    Sources S (classifyAllWith body room es) fun cs => ∀ c ∈ cs, c.IsSourced S := by
  induction es with
  | nil =>
    rw [classifyAllWith]
    exact sources_pure fun _ h => (List.not_mem_nil h).elim
  | cons e es ih =>
    rw [classifyAllWith]
    exact (all e List.mem_cons_self).bind fun c hc =>
      (ih fun e he => all e (List.mem_cons_of_mem _ he)).bind fun cs hcs =>
        sources_pure (List.forall_mem_cons.2 ⟨hc, hcs⟩)

/-- A call binds the parameters that were supplied before and those that are supplied now. -/
theorem sources_call {f : Function} {bound : List (Expr × Classification)}
    {arguments : List Expr} {supplied : List Classification} {token : Option Token}
    (called : ∀ (room : Room) (e : Expr), e.IsSourced S → Sources S (body room e) (IsSourced S))
    (h : IsSourced S (.function f bound)) (all : ∀ c ∈ supplied, c.IsSourced S)
    (placed : IsPlaced S token) :
    Sources S
      (if arguments.length = f.arity then
        inScope room (bound ++ f.parameters.zip supplied) (body room f.body)
      else pure (.function (remaining f arguments.length token)
        (bound ++ f.parameters.zip supplied))) (IsSourced S) := by
  cases h with
  | function sourced keys values =>
    have keys' : ∀ b ∈ bound ++ f.parameters.zip supplied, b.1.IsSourced S := by
      intro b hb
      rcases List.mem_append.1 hb with hb | hb
      · exact keys b hb
      · exact sourced.all _ (List.of_mem_zip hb).1
    have values' : ∀ b ∈ bound ++ f.parameters.zip supplied, b.2.IsSourced S := by
      intro b hb
      rcases List.mem_append.1 hb with hb | hb
      · exact values b hb
      · exact all _ (List.of_mem_zip hb).2
    split
    · exact sources_inScope (fun b hb => ⟨keys' b hb, values' b hb⟩) (called _ _ sourced.inner)
    · have left : (remaining f arguments.length token).IsSourced S :=
        ⟨sourced.named, fun p hp => sourced.all p (List.mem_of_mem_drop hp), sourced.headed,
          sourced.inner, placed⟩
      exact sources_pure (.function left keys' values')

/-- An expression of the texts keeps to them, with the bodies of functions given. -/
theorem sources_classifyWith
    (called : ∀ (room : Room) (e : Expr), e.IsSourced S → Sources S (body room e) (IsSourced S))
    {e : Expr} (h : e.IsSourced S) : Sources S (classifyWith body room e) (IsSourced S) := by
  induction h generalizing room with
  | number =>
    rw [classifyWith]
    exact sources_nested fun room => sources_pure .number
  | var nonempty subscripts placed _ =>
    rw [classifyWith]
    refine sources_nested fun room =>
      (sources_lookup (.var nonempty subscripts placed)).bind fun value found => ?_
    cases value with
    | none => exact sources_pure .unknown
    | some c => exact sources_pure (found c rfl)
  | unary _ operand _ inner =>
    rw [classifyWith]
    exact sources_nested fun room => inner.bind fun c _ => sources_signed c operand
  | binary lhs rhs _ left right =>
    rw [classifyWith]
    exact sources_nested fun room => left.bind fun c _ => right.bind fun d _ =>
      (sources_requireOperand c lhs).bind fun _ _ =>
        (sources_requireOperand d rhs).bind fun _ _ => sources_pure .number
  | group _ placed all | command _ _ placed all | block _ placed all =>
    rw [classifyWith]
    exact sources_nested fun room =>
      (sources_classifyAllWith fun e he => all e he).bind fun cs hcs => sources_lastOf placed hcs
  | prototype _ _ placed =>
    rw [classifyWith]
    exact sources_nested fun room => sources_refuse placed
  | @function form name parameters head inner closed token named all headed sourced placed =>
    have self : IsSourced S
        (.function ⟨form, name, parameters, head, inner, closed, token⟩ []) :=
      .function ⟨named, all, headed, sourced, placed⟩ (fun _ h => (List.not_mem_nil h).elim)
        fun _ h => (List.not_mem_nil h).elim
    rw [classifyWith]
    exact sources_nested fun room => (sources_bind named self).bind fun _ _ => sources_pure self
  | call _ _ placed callee all =>
    rw [classifyWith]
    exact sources_nested fun room => callee.bind fun c hc =>
      (sources_callable placed hc).bind fun r hr =>
        (sources_classifyAllWith fun e he => all e he).bind fun cs hcs =>
          sources_call called hr hcs placed
  | binding target _ _ _ value =>
    rw [classifyWith]
    exact sources_nested fun room =>
      value.bind fun c hc => (sources_bind target hc).bind fun _ _ => sources_pure hc

/-- An expression of the texts keeps to them, however deep its classification goes. -/
theorem sources_classifyWithin (depth : Nat) (room : Room) {e : Expr} (h : e.IsSourced S) :
    Sources S (classifyWithin depth room e) (IsSourced S) := by
  induction depth generalizing room e with
  | zero => exact sources_throw (.inl rfl)
  | succ depth ih => exact sources_classifyWith (fun room _ => ih room) h

/-- To write an expression out fails only for a number of the texts. -/
theorem sources_texWithin (room : Room) (style : Style) {e : Expr} (h : e.IsSourced S) :
    Sources S (attempt (e.texWithin room style)) fun _ => True := by
  intro types ht
  cases result : e.texWithin room style with
  | error o => exact ends_throw ⟨ht, h.failsWith_texWithin room style o result⟩
  | ok text => exact ends_pure ⟨ht, trivial⟩

/-- The check of a statement from the texts of a session keeps to them. -/
theorem sources_check {e : Expr} (h : e.IsSourced S) : Sources S (check e) (IsSourced S) :=
  (sources_classifyWithin maxLevels (.levels maxLevels) h).bind fun _ hc =>
    (sources_texWithin _ .oneLine h).bind fun _ _ => sources_pure hc

end Typing

end TexAlgebra
