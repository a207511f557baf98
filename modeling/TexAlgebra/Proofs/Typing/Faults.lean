import TexAlgebra.Proofs.Typing.Results
/-!
# Faults of classifications

Whatever is wrong with a statement that is refused, it is a matter of classification. So a fault of
evaluation cannot come from checking.
-/

namespace TexAlgebra

/-- Whether a failure, if it is a fault, is one of classification. -/
def Failure.IsOfTyping (failure : Failure) : Prop :=
  ∀ fault, failure = .fault fault → ∃ cause, fault.cause = .typing cause

/-- An obstacle is no fault. -/
theorem Failure.isOfTyping_obstacle (o : Obstacle) : Failure.IsOfTyping (.obstacle o) := by
  intro fault eq
  cases eq

namespace Typing

variable {α β : Type} {room : Room}

/-- Whether all faults of a computation are faults of classification. -/
def Blames (x : Check α) : Prop :=
  ∀ types, Ends x types (fun _ _ => True) fun failure _ => failure.IsOfTyping

theorem blames_pure {a : α} : Blames (pure a) := fun _ => ends_pure trivial

/-- A sequence of steps that blame the classification does so. -/
theorem Blames.bind {x : Check α} {f : α → Check β} (h : Blames x) (next : ∀ a, Blames (f a)) :
    Blames (x >>= f) :=
  fun types => (h types).bind fun a t _ => next a t

/-- Want of room is no fault. -/
theorem blames_nested {step : Room → Check α} (h : ∀ room, Blames (step room)) :
    Blames (room.nested (throw (.obstacle .tooDeep)) step) :=
  fun types => ends_nested (Failure.isOfTyping_obstacle .tooDeep) fun room => h room types

/-- What does not look at the environment meets obstacles but no faults. -/
theorem blames_attempt (x : Except Obstacle α) : Blames (attempt x) :=
  fun _ => ends_attempt (fun _ _ => trivial) Failure.isOfTyping_obstacle

/-- The checker refuses for reasons of classification. -/
theorem blames_refuse (cause : TypeCause) (token : Option Token) :
    Blames (refuse cause token : Check α) := by
  refine fun _ => ends_throw fun fault eq => ?_
  cases eq
  exact ⟨cause, rfl⟩

/-- A lookup meets obstacles but no faults. -/
theorem blames_lookup (x : Expr) : Blames (lookup x) :=
  fun _ => ends_lookup (fun _ _ => trivial) Failure.isOfTyping_obstacle

/-- A binding meets obstacles but no faults. -/
theorem blames_bind (x : Expr) (c : Classification) : Blames (bind x c) :=
  fun _ => ends_bind (fun _ _ => trivial) Failure.isOfTyping_obstacle

/-- A scope adds no faults to those of its action. -/
theorem blames_inScope {bindings : List (Expr × Classification)} {action : Check α}
    (h : Blames action) : Blames (inScope room bindings action) :=
  fun _ => ends_inScope
    (fun env _ => (h env).mono (fun _ _ _ => trivial) fun _ _ typing => ⟨typing, fun _ _ => typing⟩)
    Failure.isOfTyping_obstacle (Failure.isOfTyping_obstacle .tooDeep)

theorem blames_lastOf (token : Option Token) (cs : List Classification) :
    Blames (lastOf token cs) := by
  unfold lastOf
  split
  · exact blames_pure
  · exact blames_refuse _ _

theorem blames_requireOperand (operand : Expr) (c : Classification) (token : Option Token) :
    Blames (requireOperand operand c token) := by
  unfold requireOperand
  split
  · exact blames_refuse _ _
  · exact blames_pure

theorem blames_signed (node operand : Expr) (c : Classification) :
    Blames (signed node operand c) := by
  cases c with
  | number | symbolic => exact blames_pure
  | _ => exact blames_refuse _ _

theorem blames_callable (given : Nat) (token : Option Token) (c : Classification) :
    Blames (callable given token c) := by
  obtain ⟨f, bound, -, -, eq⟩ | ⟨f, bound, -, -, eq⟩ | eq := callable_cases given token c
  · exact eq ▸ blames_pure
  · exact eq ▸ blames_refuse _ _
  · exact eq ▸ blames_refuse _ _

variable {body : Room → Expr → Check Classification}

mutual

/-- All faults of an expression are of classification, with the bodies of functions given. -/
theorem blames_classifyWith (called : ∀ room e, Blames (body room e)) (room : Room) (e : Expr) :
    Blames (classifyWith body room e) := by
  rw [classifyWith]
  refine blames_nested fun room => ?_
  cases e with
  | number =>
    exact blames_pure
  | var =>
    exact (blames_lookup _).bind fun _ => blames_pure
  | unary op operand token =>
    exact (blames_classifyWith called room operand).bind fun c => blames_signed _ operand c
  | binary op lhs rhs token =>
    exact (blames_classifyWith called room lhs).bind fun c =>
      (blames_classifyWith called room rhs).bind fun d =>
        (blames_requireOperand lhs c token).bind fun _ =>
          (blames_requireOperand rhs d token).bind fun _ => blames_pure
  | group items token =>
    exact (blames_classifyAllWith called room items).bind fun cs => blames_lastOf token cs
  | command name arguments token =>
    exact (blames_classifyAllWith called room arguments).bind fun cs => blames_lastOf token cs
  | block name arguments statements token =>
    exact (blames_classifyAllWith called room statements).bind fun cs => blames_lastOf token cs
  | prototype name parameters token =>
    exact blames_refuse _ _
  | function form name parameters head inner closed token =>
    exact (blames_bind name _).bind fun _ => blames_pure
  | call callee arguments token =>
    refine (blames_classifyWith called room callee).bind fun c =>
      (blames_callable _ token c).bind fun (f, bound) =>
        (blames_classifyAllWith called room arguments).bind fun cs => ?_
    dsimp only
    split
    · exact blames_inScope (called room f.body)
    · exact blames_pure
  | binding target value token =>
    exact (blames_classifyWith called room value).bind fun c =>
      (blames_bind target c).bind fun _ => blames_pure

/-- So are those of the expressions of a list. -/
theorem blames_classifyAllWith (called : ∀ room e, Blames (body room e)) (room : Room)
    (es : List Expr) :
    Blames (classifyAllWith body room es) := by
  cases es with
  | nil =>
    rw [classifyAllWith]
    exact blames_pure
  | cons e es =>
    rw [classifyAllWith]
    exact (blames_classifyWith called room e).bind fun c =>
      (blames_classifyAllWith called room es).bind fun cs => blames_pure

end

/-- All faults of an expression are of classification, however deep it may go. -/
theorem blames_classifyWithin (depth : Nat) (room : Room) (e : Expr) :
    Blames (classifyWithin depth room e) := by
  induction depth generalizing room e with
  | zero => exact fun _ => ends_throw (Failure.isOfTyping_obstacle .tooDeep)
  | succ depth ih => exact blames_classifyWith ih room e

/-- A statement that is refused has a fault of classification, or it meets an obstacle. -/
theorem blames_check (e : Expr) : Blames (check e) :=
  (blames_classifyWithin maxLevels (.levels maxLevels) e).bind fun _ =>
    (blames_attempt _).bind fun _ => blames_pure

end Typing

end TexAlgebra
