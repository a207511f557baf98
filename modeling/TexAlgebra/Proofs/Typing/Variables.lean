import TexAlgebra.Proofs.Typing.Results
import TexAlgebra.Proofs.Variables
/-!
# Variables of checked statements

Checking brings in no variables: if all variables of the bindings and of a statement have a
property, then so have those of the bindings after the check, of its classification, and of what its
fault is about (`Typing.retains_check`).
-/

namespace TexAlgebra.Typing

variable {α β : Type} {P : Expr → Prop} {Q : α → Prop} {R : β → Prop} {room : Room}

/-- Whether all variables that are bound, and those of their classifications, have the property. -/
def AllVariables (P : Expr → Prop) (types : Environment Classification) : Prop :=
  types.AllBindings fun x c => x.AllVariables P ∧ c.AllVariables P

/-- Whether a check brings in no variables without the property `P`, whether it succeeds or not, and
its results have the property `Q`. -/
def Retains (P : Expr → Prop) (x : Check α) (Q : α → Prop) : Prop :=
  ∀ types, AllVariables P types →
    Ends x types (fun a t => AllVariables P t ∧ Q a)
      fun failure t => AllVariables P t ∧ failure.AllVariables P

/-! ## Steps -/

theorem retains_pure {a : α} (h : Q a) : Retains P (pure a) Q := fun _ kept => ends_pure ⟨kept, h⟩

/-- A refusal may cite a classification, and brings in what that mentions. -/
theorem retains_refuse {cause : TypeCause} {token : Option Token}
    (h : ∀ c ∈ (Cause.typing cause).found?, c.AllVariables P) :
    Retains P (refuse cause token : Check α) Q :=
  fun _ kept => ends_throw ⟨kept, h⟩

/-- What follows a step that brings in nothing only has to do so for results with the property. -/
theorem Retains.bind {x : Check α} {f : α → Check β} (h : Retains P x Q)
    (next : ∀ a, Q a → Retains P (f a) R) : Retains P (x >>= f) R :=
  fun types kept => (h types kept).bind fun a t ended => next a ended.2 t ended.1

/-- A step with less room brings in no more than with any room. -/
theorem retains_nested {step : Room → Check α} (h : ∀ room, Retains P (step room) Q) :
    Retains P (room.nested (throw (.obstacle .tooDeep)) step) Q :=
  fun types kept => ends_nested ⟨kept, trivial⟩ fun room => h room types kept

/-- What does not look at the environment brings in nothing. -/
theorem retains_attempt (x : Except Obstacle α) : Retains P (attempt x) fun _ => True :=
  fun _ kept => ends_attempt (fun _ _ => ⟨kept, trivial⟩) fun _ => ⟨kept, trivial⟩

/-- A lookup brings in what is bound. -/
theorem retains_lookup (x : Expr) :
    Retains P (lookup x) fun value => ∀ c ∈ value, c.AllVariables P := by
  refine fun types kept => ends_lookup (fun value found => ⟨kept, ?_⟩) fun _ => ⟨kept, trivial⟩
  rintro c rfl
  obtain ⟨-, -, -, all⟩ := kept.of_lookup found
  exact all

/-- A binding brings in its variable and what it is bound to. -/
theorem retains_bind {x : Expr} {c : Classification} (hx : x.AllVariables P)
    (hc : c.AllVariables P) : Retains P (bind x c) fun _ => True :=
  fun _ kept => ends_bind (fun _ changed => ⟨kept.set ⟨hx, hc⟩ changed, trivial⟩)
    fun _ => ⟨kept, trivial⟩

/-- A scope brings in its bindings and what its action does. -/
theorem retains_inScope {bindings : List (Expr × Classification)} {action : Check α}
    (all : ∀ b ∈ bindings, b.1.AllVariables P ∧ b.2.AllVariables P) (h : Retains P action Q) :
    Retains P (inScope room bindings action) Q := by
  refine fun types kept => ends_inScope (fun env made => ?_) (fun _ => ⟨kept, trivial⟩)
    ⟨kept.push, trivial⟩
  exact (h env (kept.push.setAll all made)).mono (fun _ _ ended => ⟨ended.1.leave, ended.2⟩)
    fun _ _ ended => ⟨⟨ended.1.leave, ended.2⟩, fun _ _ => ended⟩

/-- The last of some classifications mentions what they mention. -/
theorem retains_lastOf {token : Option Token} {cs : List Classification}
    (all : ∀ c ∈ cs, c.AllVariables P) :
    Retains P (lastOf token cs) (Classification.AllVariables P) := by
  unfold lastOf
  split
  · next c last => exact retains_pure (all c (List.mem_of_getLast? last))
  · exact retains_refuse fun _ found => by cases found

/-- A classification that is no operand may be cited. -/
theorem retains_requireOperand {operand : Expr} {c : Classification} {token : Option Token}
    (hc : c.AllVariables P) : Retains P (requireOperand operand c token) fun _ => True := by
  unfold requireOperand
  split
  · exact retains_refuse fun _ found => Option.some.inj found ▸ hc
  · exact retains_pure trivial

/-- A sign brings in its operand. -/
theorem retains_signed {node operand : Expr} {c : Classification} (hn : node.AllVariables P)
    (hc : c.AllVariables P) :
    Retains P (signed node operand c) (Classification.AllVariables P) := by
  cases c with
  | number => exact retains_pure (.number hn)
  | symbolic => exact retains_pure (.symbolic hn)
  | _ => exact retains_refuse fun _ found => Option.some.inj found ▸ hc

/-- What can be called mentions what it did before. -/
theorem retains_callable {given : Nat} {token : Option Token} {c : Classification}
    (hc : c.AllVariables P) :
    Retains P (callable given token c)
      fun r => Classification.AllVariables P (.function r.1 r.2) := by
  obtain ⟨f, bound, rfl, -, eq⟩ | ⟨f, bound, -, -, eq⟩ | eq := callable_cases given token c
  · exact eq ▸ retains_pure hc
  · exact eq ▸ retains_refuse fun _ found => by cases found
  · exact eq ▸ retains_refuse fun _ found => Option.some.inj found ▸ hc

/-! ## Statements -/

variable {body : Room → Expr → Check Classification}

/-- The expressions of a list bring in what they mention. -/
theorem retains_classifyAllWith {es : List Expr}
    (all : ∀ e ∈ es, Retains P (classifyWith body room e) (Classification.AllVariables P)) :
    Retains P (classifyAllWith body room es) fun cs => ∀ c ∈ cs, c.AllVariables P := by
  induction es with
  | nil =>
    rw [classifyAllWith]
    exact retains_pure fun _ h => (List.not_mem_nil h).elim
  | cons e es ih =>
    obtain ⟨first, others⟩ := List.forall_mem_cons.1 all
    rw [classifyAllWith]
    exact first.bind fun c hc => (ih others).bind fun cs hcs =>
      retains_pure (List.forall_mem_cons.2 ⟨hc, hcs⟩)

/-- A call binds the parameters that were supplied before and those that are supplied now. -/
theorem retains_call
    (called : ∀ (room : Room) (e : Expr), e.AllVariables P →
      Retains P (body room e) (Classification.AllVariables P))
    {f : Function} {bound : List (Expr × Classification)} {arguments : List Expr}
    {supplied : List Classification} {token : Option Token}
    (h : Classification.AllVariables P (.function f bound))
    (all : ∀ c ∈ supplied, c.AllVariables P) :
    Retains P
      (if arguments.length = f.arity then
        inScope room (bound ++ f.parameters.zip supplied) (body room f.body)
      else pure (.function (remaining f arguments.length token)
        (bound ++ f.parameters.zip supplied))) (Classification.AllVariables P) := by
  cases h with
  | function known keys values =>
    have keys' : ∀ b ∈ bound ++ f.parameters.zip supplied, b.1.AllVariables P := by
      intro b hb
      rcases List.mem_append.1 hb with hb | hb
      · exact keys b hb
      · exact known.all _ (List.of_mem_zip hb).1
    have values' : ∀ b ∈ bound ++ f.parameters.zip supplied, b.2.AllVariables P := by
      intro b hb
      rcases List.mem_append.1 hb with hb | hb
      · exact values b hb
      · exact all _ (List.of_mem_zip hb).2
    split
    · exact retains_inScope (fun b hb => ⟨keys' b hb, values' b hb⟩) (called _ _ known.inner)
    · refine retains_pure (.function ?_ keys' values')
      exact ⟨known.named, fun p hp => known.all p (List.mem_of_mem_drop hp), known.inner,
        fun _ h => (List.not_mem_nil h).elim, fun _ h => (List.not_mem_nil h).elim⟩

/-- An expression brings in what it mentions, with the bodies of functions given. -/
theorem retains_classifyWith
    (called : ∀ (room : Room) (e : Expr), e.AllVariables P →
      Retains P (body room e) (Classification.AllVariables P))
    {e : Expr} (h : e.AllVariables P) :
    Retains P (classifyWith body room e) (Classification.AllVariables P) := by
  induction h generalizing room with
  | number =>
    rw [classifyWith]
    exact retains_nested fun room => retains_pure (.number .number)
  | var itself all =>
    rw [classifyWith]
    refine retains_nested fun room => (retains_lookup _).bind fun value found => retains_pure ?_
    cases value with
    | none => exact .unknown (.var itself all)
    | some c => exact found c rfl
  | unary inner operand =>
    rw [classifyWith]
    exact retains_nested fun room => operand.bind fun c hc => retains_signed (.unary inner) hc
  | binary lhs rhs left right =>
    rw [classifyWith]
    exact retains_nested fun room => left.bind fun c hc => right.bind fun d hd =>
      (retains_requireOperand hc).bind fun _ _ =>
        (retains_requireOperand hd).bind fun _ _ => retains_pure (.number (.binary lhs rhs))
  | group _ all | command _ all | block _ all =>
    rw [classifyWith]
    exact retains_nested fun room =>
      (retains_classifyAllWith fun e he => all e he).bind fun cs hcs => retains_lastOf hcs
  | prototype =>
    rw [classifyWith]
    exact retains_nested fun room => retains_refuse fun _ found => by cases found
  | @function form name parameters head inner closed token named all known supplied values =>
    have self : Classification.AllVariables P
        (.function ⟨form, name, parameters, head, inner, closed, token⟩ []) :=
      .function ⟨named, all, known, supplied, values⟩ (fun _ h => (List.not_mem_nil h).elim)
        fun _ h => (List.not_mem_nil h).elim
    rw [classifyWith]
    exact retains_nested fun room => (retains_bind named self).bind fun _ _ => retains_pure self
  | call _ _ callee all =>
    rw [classifyWith]
    exact retains_nested fun room => callee.bind fun c hc => (retains_callable hc).bind fun r hr =>
      (retains_classifyAllWith fun e he => all e he).bind fun cs hcs => retains_call called hr hcs
  | binding target _ _ value =>
    rw [classifyWith]
    exact retains_nested fun room =>
      value.bind fun c hc => (retains_bind target hc).bind fun _ _ => retains_pure hc

/-- An expression brings in what it mentions, however deep its classification goes. -/
theorem retains_classifyWithin (depth : Nat) (room : Room) {e : Expr} (h : e.AllVariables P) :
    Retains P (classifyWithin depth room e) (Classification.AllVariables P) := by
  induction depth generalizing room e with
  | zero => exact fun _ kept => ends_throw ⟨kept, trivial⟩
  | succ depth ih => exact retains_classifyWith (fun room _ => ih room) h

/-- The check of a statement brings in no variables. -/
theorem retains_check {e : Expr} (h : e.AllVariables P) :
    Retains P (check e) (Classification.AllVariables P) :=
  (retains_classifyWithin maxLevels (.levels maxLevels) h).bind fun _ hc =>
    (retains_attempt _).bind fun _ _ => retains_pure hc

end TexAlgebra.Typing
