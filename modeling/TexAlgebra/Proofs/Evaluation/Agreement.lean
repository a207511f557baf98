import TexAlgebra.Proofs.Environment.Inner
import TexAlgebra.Proofs.Evaluation.Depth
import TexAlgebra.Proofs.Evaluation.Within
/-!
# Environments that agree

Two runs can be compared side by side where their environments agree: under every name of a set `P`
the same is found in both, and it is within `P` again (`Environment.Agrees`). Scopes that bind other
names only change nothing about that (`Environment.agrees_of_apart`).

A computation is isolated if it ends in the same way from any two states that are related
(`Evaluation.IsIsolated`). Where it fails both runs end, so nothing is asked of the states then.
-/

namespace TexAlgebra

open TexAlgebra.Expr

variable {P : String → Prop} {C : List String} {n : Nat} {env env' : Environment Expr}

/-! ## Environments that agree -/

/-- Whether the same is found in two environments under the names of `P`, and whether it is within
`P`. -/
structure Environment.Agrees (P : String → Prop) (env env' : Environment Expr) : Prop where
  same : ∀ x, x.IsNamedIn P → env.lookup x = env'.lookup x
  within : ∀ x v, x.IsNamedIn P → env.lookup x = .ok (some v) → IsWithin P [] v

namespace Environment

/-- A common scope on top keeps two environments in agreement if its values are within `P`. -/
theorem Agrees.inner (h : Agrees P env env') {scope : Scope Expr}
    (values : ∀ b ∈ scope, IsWithin P [] b.2) : Agrees P (env.inner scope) (env'.inner scope) where
  same x hx := by rw [lookup_inner, lookup_inner, h.same x hx]
  within x v hx found := by
    rw [lookup_inner] at found
    obtain ⟨value, looked, found⟩ := ok_of_bind found
    cases value with
    | none => exact h.within x v hx found
    | some w =>
      cases found
      obtain ⟨y, mem, -⟩ := Scope.mem_of_lookup looked
      exact values _ mem

/-- What has a name of `P`, or no name, is not found in a scope that binds other names only. -/
theorem lookup_of_apart {scope : Scope Expr} {x : Expr}
    (apart : ∀ b ∈ scope, ∃ name ∈ b.1.variableName?, ¬ P name) (hx : x.IsNamedIn P) :
    scope.lookup x = .ok none := by
  have other : ∀ b ∈ scope, b.1.variableName? ≠ x.variableName? := by
    intro b hb same
    obtain ⟨name, named, outside⟩ := apart b hb
    rw [same] at named
    exact outside (hx name named)
  have unfound : scope.find? (·.1 == x) = none :=
    List.find?_eq_none.2 fun b hb eq => other b hb (variableName?_eq_of_beq eq)
  rw [Scope.lookup, unfound]
  refine Scope.firstMatch?_eq_none fun b hb => ?_
  obtain ⟨name, named, -⟩ := apart b hb
  have other := other b hb
  obtain ⟨y, a⟩ := b
  -- a variable of another name is told apart before any subscript is looked at
  cases y with
  | var m subscripts token =>
    cases x with
    | var k others token' =>
      have ne : m ≠ k := fun eq => other (by rw [variableName?, variableName?, eq])
      simp [matchesWith, both, ne]
      rfl
    | _ =>
      simp [matchesWith]
      rfl
  | _ => cases named

/-- Callers that bind no name of `P` change nothing about what is found under those names. -/
theorem agrees_of_apart {globals : Scope Expr} {callers : List (Scope Expr)}
    (closed : ∀ b ∈ globals, b.1.IsNamedIn P → IsWithin P [] b.2)
    (apart : ∀ scope ∈ callers, ∀ b ∈ scope, ∃ name ∈ b.1.variableName?, ¬ P name) :
    Agrees P ⟨globals, callers⟩ ⟨globals, []⟩ := by
  have same : ∀ x : Expr, x.IsNamedIn P →
      (⟨globals, callers⟩ : Environment Expr).lookup x =
        (⟨globals, []⟩ : Environment Expr).lookup x := by
    intro x hx
    induction callers with
    | nil => rfl
    | cons scope callers ih =>
      obtain ⟨here, outer⟩ := List.forall_mem_cons.1 apart
      show ((⟨globals, callers⟩ : Environment Expr).inner scope).lookup x = _
      rw [lookup_inner, lookup_of_apart here hx]
      exact ih outer
  refine ⟨same, fun x v hx found => ?_⟩
  rw [same x hx] at found
  have all : (⟨globals, []⟩ : Environment Expr).AllBindings fun y a =>
      y.IsNamedIn P → IsWithin P [] a := by
    intro s hs b hb
    obtain rfl := List.mem_singleton.1 hs
    exact closed b hb
  obtain ⟨y, name, within⟩ := all.of_lookup found
  exact within fun m hm => hx m (name ▸ hm)

end Environment

open Environment

namespace Evaluation

variable {α β : Type} {I : Evaluator → Evaluator → Prop} {Q : α → Prop} {R : β → Prop} {room : Room}

/-! ## Computations without a difference -/

/-- Whether a computation ends in the same way from any two states that `I` relates: with one
result, which has the property `Q`, in states that are related again, or with one failure. -/
def IsIsolated (I : Evaluator → Evaluator → Prop) (x : Eval α) (Q : α → Prop) : Prop :=
  ∀ s t, I s t → (∃ a s' t', x s = (.ok a, s') ∧ x t = (.ok a, t') ∧ Q a ∧ I s' t') ∨
    ∃ failure s' t', x s = (.error failure, s') ∧ x t = (.error failure, t')

theorem isolated_pure {a : α} (h : Q a) : IsIsolated I (pure a) Q :=
  fun s t related => .inl ⟨a, s, t, rfl, rfl, h, related⟩

/-- A failure is the same from any two states. -/
theorem isolated_throw {failure : Failure} : IsIsolated I (throw failure : Eval α) Q :=
  fun s t _ => .inr ⟨failure, s, t, rfl, rfl⟩

/-- What follows an isolated computation only has to be isolated for results with its property. -/
theorem IsIsolated.bind {x : Eval α} {f : α → Eval β} (h : IsIsolated I x Q)
    (next : ∀ a, Q a → IsIsolated I (f a) R) : IsIsolated I (x >>= f) R := by
  intro s t related
  obtain ⟨a, s', t', left, right, property, later⟩ | ⟨failure, s', t', left, right⟩ :=
    h s t related
  · rw [bind_of_ok left, bind_of_ok right]
    exact next a property s' t' later
  · exact .inr ⟨failure, s', t', bind_of_error left, bind_of_error right⟩

theorem IsIsolated.imp {x : Eval α} {Q' : α → Prop} (h : IsIsolated I x Q)
    (imp : ∀ a, Q a → Q' a) : IsIsolated I x Q' := by
  intro s t related
  obtain ⟨a, s', t', left, right, property, later⟩ | failed := h s t related
  · exact .inl ⟨a, s', t', left, right, imp a property, later⟩
  · exact .inr failed

/-- From related states an isolated computation has one result, or one failure. -/
theorem IsIsolated.fst_eq {x : Eval α} (h : IsIsolated I x Q) {s t : Evaluator} (related : I s t) :
    (x s).1 = (x t).1 := by
  obtain ⟨a, s', t', left, right, -⟩ | ⟨failure, s', t', left, right⟩ := h s t related
  all_goals rw [left, right]

/-- If there is no room left both runs give up, and otherwise both have the same room inside. -/
theorem isolated_nested {step : Room → Eval α} (h : ∀ room, IsIsolated I (step room) Q) :
    IsIsolated I (room.nested (throw (.obstacle .tooDeep)) step) Q := by
  obtain rfl | ⟨inner, -, made⟩ := room.nested_cases (α := Eval α)
  · exact isolated_throw
  · rw [made]
    exact h inner

/-- What does not look at the state ends alike from any two states. -/
theorem isolated_attempt (x : Except Obstacle α) : IsIsolated I (attempt x) fun a => x = .ok a := by
  cases x with
  | error o => exact isolated_throw
  | ok a => exact isolated_pure rfl

/-- Whether an expression can be written out does not depend on the state. -/
theorem isolated_requireText (style : Style) (e : Expr) :
    IsIsolated I (requireText room style e) fun _ => True :=
  (isolated_attempt _).bind fun _ _ => isolated_pure trivial

/-- A sign in front of a value within `P` gives a value within `P`. -/
theorem isolated_signed {op : Operator} {operand : Expr} (token : Option Token)
    (h : IsWithin P [] operand) : IsIsolated I (signed op operand token) (IsWithin P []) := by
  cases operand with
  | number text t => exact (isolated_attempt _).bind fun _ _ => isolated_pure .number
  | function => exact isolated_throw
  | _ => exact isolated_pure (.unary h)

/-- An operation on values within `P` gives a value within `P`: a number, or the operation itself.
-/
theorem isolated_operation {op : Operator} {lhs rhs : Expr} (token : Option Token)
    (left : IsWithin P [] lhs) (right : IsWithin P [] rhs) :
    IsIsolated I (operation op lhs rhs token) (IsWithin P []) := by
  unfold operation
  split
  · exact isolated_throw
  · split
    · exact isolated_pure (.binary left right)
    · refine (isolated_attempt _).bind fun result _ => ?_
      cases result with
      | none => exact isolated_pure (.binary left right)
      | some text => exact isolated_pure .number
    · exact isolated_pure (.binary left right)

end Evaluation

end TexAlgebra
