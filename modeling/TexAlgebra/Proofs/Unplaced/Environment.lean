import TexAlgebra.Proofs.Environment.Mapped
import TexAlgebra.Proofs.Unplaced.Expression
/-!
# Environments without places

Which variables match does not depend on their places. So an environment without the places of its
variables binds the same, and every operation on it gives what it gives on the environment itself,
without the places.
-/

namespace TexAlgebra

open TexAlgebra.Expr

variable {α : Type}

/-! ## The token of a variable -/

section

variable (name : String) (t t' : Option Token)

/-- A name is equal to the same ones wherever it stands. -/
theorem Expr.beq_var_token (y : Expr) : (y == .var name [] t) = (y == .var name [] t') := by
  cases y <;> rfl

/-- A name matches the same ones wherever it stands. -/
theorem Expr.matchesWith_var_token (y : Expr) :
    y.matchesWith (.var name [] t) = y.matchesWith (.var name [] t') := by
  cases y <;> simp only [Expr.matchesWith]

/-- A name is found wherever it stands. -/
theorem Scope.lookup_var_token (s : Scope α) :
    s.lookup (.var name [] t) = s.lookup (.var name [] t') := by
  have found : (fun b : Expr × α => b.1 == .var name [] t) = fun b => b.1 == .var name [] t' :=
    funext fun b => beq_var_token name t t' b.1
  have first (s : Scope α) :
      Scope.firstMatch? (.var name [] t) s = Scope.firstMatch? (.var name [] t') s := by
    induction s with
    | nil => rfl
    | cons b s ih => rw [Scope.firstMatch?, Scope.firstMatch?, matchesWith_var_token name t t', ih]
  rw [Scope.lookup, Scope.lookup, found, first]

/-- What a name is bound to does not depend on the token that it was read from. -/
theorem Environment.lookup_var_token (env : Environment α) :
    env.lookup (.var name [] t) = env.lookup (.var name [] t') := by
  have within (scopes : List (Scope α)) : Environment.lookupIn (.var name [] t) scopes =
      Environment.lookupIn (.var name [] t') scopes := by
    induction scopes with
    | nil => rfl
    | cons s scopes ih =>
      rw [Environment.lookupIn, Environment.lookupIn, Scope.lookup_var_token name t t', ih]
  exact within _

end

/-! ## Places of variables -/

namespace Scope

/-- The scope with all tokens of its variables at the start of a text. -/
def unplaced (s : Scope α) : Scope α := s.map fun b => (b.1.unplaced, b.2)

/-- What matches does not depend on places. -/
theorem firstMatch?_unplaced (x : Expr) (s : Scope α) :
    firstMatch? x.unplaced s.unplaced = firstMatch? x s := by
  induction s with
  | nil => rfl
  | cons b s ih =>
    obtain ⟨y, a⟩ := b
    show (do if ← y.unplaced.matchesWith x.unplaced then return some a else
      firstMatch? x.unplaced (unplaced s)) = _
    rw [matchesWith_unplaced, ih, firstMatch?]

theorem lookup_unplaced (x : Expr) (s : Scope α) : lookup x.unplaced s.unplaced = lookup x s := by
  have key : ((fun b : Expr × α => b.1 == x.unplaced) ∘ fun b : Expr × α => (b.1.unplaced, b.2)) =
      fun b => b.1 == x := funext fun b => beq_unplaced b.1 x
  have found : s.unplaced.find? (·.1 == x.unplaced) =
      (s.find? (·.1 == x)).map fun b => (b.1.unplaced, b.2) := by
    rw [unplaced, List.find?_map, key]
  rw [lookup, lookup, found]
  cases s.find? (·.1 == x) with
  | none => exact firstMatch?_unplaced x s
  | some b => rfl

/-- What is erased does not depend on places. -/
theorem erase_unplaced (x : Expr) (s : Scope α) :
    erase x.unplaced s.unplaced = (erase x s).map unplaced := by
  induction s with
  | nil => rfl
  | cons b s ih =>
    obtain ⟨y, a⟩ := b
    show (y.unplaced.matchesWith x.unplaced >>= fun found =>
      erase x.unplaced (unplaced s) >>= _) = _
    rw [matchesWith_unplaced, ih, erase]
    cases y.matchesWith x with
    | error o => rfl
    | ok found =>
      cases erase x s with
      | error o => rfl
      | ok rest => cases found <;> rfl

theorem set_unplaced (x : Expr) (a : α) (s : Scope α) :
    set x.unplaced a s.unplaced = (set x a s).map unplaced := by
  rw [set, set, erase_unplaced]
  cases erase x s with
  | error o => rfl
  | ok rest =>
    show Except.ok (unplaced rest ++ [(x.unplaced, a)]) = .ok (unplaced (rest ++ [(x, a)]))
    rw [unplaced, unplaced, List.map_append]
    rfl

end Scope

namespace Environment

/-- The environment with all tokens of its variables at the start of a text. -/
def unplaced (env : Environment α) : Environment α :=
  ⟨env.globals.unplaced, env.scopes.map Scope.unplaced⟩

/-- Places are dropped scope by scope. -/
theorem scopes_unplaced (env : Environment α) :
    env.unplaced.scopes ++ [env.unplaced.globals] =
      (env.scopes ++ [env.globals]).map Scope.unplaced := by
  rw [List.map_append]
  rfl

theorem leave_unplaced (env : Environment α) : env.unplaced.leave = env.leave.unplaced := by
  rw [leave, leave, unplaced, unplaced, List.map_drop]

theorem lookup_unplaced (env : Environment α) (x : Expr) :
    env.unplaced.lookup x.unplaced = env.lookup x := by
  rw [lookup, lookup, scopes_unplaced]
  induction env.scopes ++ [env.globals] with
  | nil => rfl
  | cons s outer ih => rw [List.map_cons, lookupIn, lookupIn, Scope.lookup_unplaced, ih]

theorem set_unplaced (env : Environment α) (x : Expr) (a : α) :
    env.unplaced.set x.unplaced a = (env.set x a).map unplaced := by
  obtain ⟨globals, scopes⟩ := env
  cases scopes with
  | nil =>
    show (Scope.set x.unplaced a (Scope.unplaced globals) >>= _) =
      Except.map unplaced (Scope.set x a globals >>= fun s => pure ⟨s, []⟩)
    rw [Scope.set_unplaced]
    cases Scope.set x a globals <;> rfl
  | cons s outer =>
    show (Scope.set x.unplaced a (Scope.unplaced s) >>= _) =
      Except.map unplaced (Scope.set x a s >>= fun s => pure ⟨globals, s :: outer⟩)
    rw [Scope.set_unplaced]
    cases Scope.set x a s <;> rfl

/-- Several variables are set alike without places. -/
theorem setAll_unplaced (env : Environment α) (bindings : Scope α) :
    env.unplaced.setAll bindings.unplaced = (env.setAll bindings).map unplaced := by
  induction bindings generalizing env with
  | nil => rfl
  | cons b bindings ih =>
    obtain ⟨x, a⟩ := b
    show (env.unplaced.set x.unplaced a >>= fun env => env.setAll (Scope.unplaced bindings)) = _
    rw [set_unplaced, setAll]
    cases env.set x a with
    | error o => rfl
    | ok env' => exact ih env'

end Environment

/-! ## Bindings with values -/

/-- The scope without places: neither its variables have one nor, as `g` takes care of, its values.
-/
def Scope.stripped {α : Type} (g : α → α) (s : Scope α) : Scope α := (s.mapped g).unplaced

namespace Environment

variable (g : α → α)

/-- The environment without places: neither its variables have one nor, as `g` takes care of, its
values. -/
def stripped (env : Environment α) : Environment α := (env.mapped g).unplaced

/-- A new scope has no places. -/
theorem stripped_push (env : Environment α) : (env.stripped g).push = env.push.stripped g := rfl

/-- To leave a scope does not depend on places. -/
theorem stripped_leave (env : Environment α) : (env.stripped g).leave = env.leave.stripped g := by
  have left : (env.mapped g).leave = env.leave.mapped g := by
    rw [leave, leave, mapped, mapped, List.map_drop]
  rw [stripped, stripped, leave_unplaced, left]

theorem lookup_stripped (env : Environment α) (x : Expr) :
    (env.stripped g).lookup x.unplaced = (env.lookup x).map (Option.map g) := by
  rw [stripped, lookup_unplaced, lookup_mapped]

theorem set_stripped (env : Environment α) (x : Expr) (a : α) :
    (env.stripped g).set x.unplaced (g a) = (env.set x a).map (stripped g) := by
  rw [stripped, set_unplaced, set_mapped]
  cases env.set x a <;> rfl

/-- Several variables are set alike without places, and their values are replaced. -/
theorem setAll_stripped (env : Environment α) (bindings : Scope α) :
    (env.stripped g).setAll (bindings.stripped g) = (env.setAll bindings).map (stripped g) := by
  rw [stripped, Scope.stripped, setAll_unplaced, setAll_mapped]
  cases env.setAll bindings <;> rfl

end Environment

end TexAlgebra
