import TexAlgebra.Proofs.Environment
/-!
# Environments with other values

What is bound in an environment depends on its variables alone. So every operation on environments
commutes with a change of all values, and two environments that come from one by changing its values
in different ways stay so when the same variables are bound in both.
-/

namespace TexAlgebra

variable {α β : Type} (g : α → β)

namespace Scope

/-- The scope with all values changed. -/
def mapped (s : Scope α) : Scope β := s.map fun b => (b.1, g b.2)

/-- What matches does not depend on the values. -/
theorem firstMatch?_mapped (x : Expr) (s : Scope α) :
    firstMatch? x (s.mapped g) = (firstMatch? x s).map (Option.map g) := by
  induction s with
  | nil => rfl
  | cons b s ih =>
    obtain ⟨y, a⟩ := b
    show (y.matchesWith x >>= fun found => if found then _ else firstMatch? x (mapped g s)) = _
    rw [ih, firstMatch?]
    cases y.matchesWith x with
    | error o => rfl
    | ok found => cases found <;> rfl

theorem lookup_mapped (x : Expr) (s : Scope α) :
    lookup x (s.mapped g) = (lookup x s).map (Option.map g) := by
  have found : (s.mapped g).find? (·.1 == x) =
      (s.find? (·.1 == x)).map fun b => (b.1, g b.2) := by
    rw [mapped, List.find?_map]
    rfl
  rw [lookup, lookup, found]
  cases s.find? (·.1 == x) with
  | none => exact firstMatch?_mapped g x s
  | some b => rfl

/-- What is erased does not depend on the values. -/
theorem erase_mapped (x : Expr) (s : Scope α) :
    erase x (s.mapped g) = (erase x s).map (mapped g) := by
  induction s with
  | nil => rfl
  | cons b s ih =>
    obtain ⟨y, a⟩ := b
    show (y.matchesWith x >>= fun found => erase x (mapped g s) >>= _) = _
    rw [ih, erase]
    cases y.matchesWith x with
    | error o => rfl
    | ok found =>
      cases erase x s with
      | error o => rfl
      | ok rest => cases found <;> rfl

theorem set_mapped (x : Expr) (a : α) (s : Scope α) :
    set x (g a) (s.mapped g) = (set x a s).map (mapped g) := by
  rw [set, set, erase_mapped]
  cases erase x s with
  | error o => rfl
  | ok rest =>
    show Except.ok (mapped g rest ++ [(x, g a)]) = .ok (mapped g (rest ++ [(x, a)]))
    rw [mapped, mapped, List.map_append]
    rfl

end Scope

namespace Environment

/-- The environment with all values changed. -/
def mapped (env : Environment α) : Environment β :=
  ⟨env.globals.mapped g, env.scopes.map (Scope.mapped g)⟩

@[simp] theorem mapped_push (env : Environment α) : (env.mapped g).push = env.push.mapped g := rfl

/-- Values are replaced scope by scope. -/
theorem scopes_mapped (env : Environment α) :
    (env.mapped g).scopes ++ [(env.mapped g).globals] =
      (env.scopes ++ [env.globals]).map (Scope.mapped g) := by
  rw [List.map_append]
  rfl

/-- What holds of the bindings holds of those with replaced values, if it follows. -/
theorem AllBindings.mapped {P : Expr → α → Prop} {Q : Expr → β → Prop} {env : Environment α}
    (h : env.AllBindings P) (imp : ∀ x a, P x a → Q x (g a)) : (env.mapped g).AllBindings Q := by
  intro s hs b hb
  rw [scopes_mapped] at hs
  obtain ⟨s', mem, rfl⟩ := List.mem_map.1 hs
  obtain ⟨b', mem', rfl⟩ := List.mem_map.1 hb
  exact imp b'.1 b'.2 (h s' mem b' mem')

theorem lookup_mapped (env : Environment α) (x : Expr) :
    (env.mapped g).lookup x = (env.lookup x).map (Option.map g) := by
  rw [lookup, lookup, scopes_mapped]
  induction env.scopes ++ [env.globals] with
  | nil => rfl
  | cons s outer ih =>
    rw [List.map_cons, lookupIn, lookupIn, Scope.lookup_mapped, ih]
    cases Scope.lookup x s with
    | error o => rfl
    | ok found => cases found <;> rfl

theorem set_mapped (env : Environment α) (x : Expr) (a : α) :
    (env.mapped g).set x (g a) = (env.set x a).map (mapped g) := by
  obtain ⟨globals, scopes⟩ := env
  cases scopes with
  | nil =>
    show (Scope.set x (g a) (Scope.mapped g globals) >>= _) =
      Except.map (mapped g) (Scope.set x a globals >>= fun s => pure ⟨s, []⟩)
    rw [Scope.set_mapped]
    cases Scope.set x a globals <;> rfl
  | cons s outer =>
    show (Scope.set x (g a) (Scope.mapped g s) >>= _) =
      Except.map (mapped g) (Scope.set x a s >>= fun s => pure ⟨globals, s :: outer⟩)
    rw [Scope.set_mapped]
    cases Scope.set x a s <;> rfl

/-- Several variables are set alike among replaced values. -/
theorem setAll_mapped (env : Environment α) (bindings : Scope α) :
    (env.mapped g).setAll (bindings.mapped g) = (env.setAll bindings).map (mapped g) := by
  induction bindings generalizing env with
  | nil => rfl
  | cons b bindings ih =>
    obtain ⟨x, a⟩ := b
    show ((env.mapped g).set x (g a) >>= fun env => env.setAll (Scope.mapped g bindings)) = _
    rw [set_mapped, setAll]
    cases env.set x a with
    | error o => rfl
    | ok env' => exact ih env'

/-! ## Inner scopes -/

/-- To leave a scope drops what was set in it. -/
theorem leave_of_setAll {globals s : Scope α} {outer : List (Scope α)} {bindings : Scope α}
    {env : Environment α}
    (h : (⟨globals, s :: outer⟩ : Environment α).setAll bindings = .ok env) :
    env.leave = ⟨globals, outer⟩ := by
  -- every binding goes to the innermost scope, which `leave` drops
  induction bindings generalizing s with
  | nil =>
    cases h
    rfl
  | cons b bindings ih =>
    obtain ⟨env₁, changed, later⟩ := ok_of_bind h
    obtain ⟨s', -, result⟩ := ok_of_bind changed
    cases ok_of_pure result
    exact ih later

/-- Bindings that are made in a new scope are gone when it is left. -/
theorem leave_of_setAll_push {env env' : Environment α} {bindings : Scope α}
    (h : env.push.setAll bindings = .ok env') : env'.leave = env :=
  leave_of_setAll h

end Environment

end TexAlgebra
