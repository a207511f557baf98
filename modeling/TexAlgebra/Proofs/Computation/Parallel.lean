import TexAlgebra.Proofs.Computation
/-!
# Computations in parallel

Two computations on states run in parallel if, from related states, both succeed with related
results or both fail with related errors, and leave related states behind. So a statement about two
runs of a program is one about its steps. Computations without a state correspond if they have
related results or the same error.
-/

namespace TexAlgebra

variable {α β γ δ ε ε' σ τ σ' τ' : Type}

/-- Whether two computations, from states that `I` relates, end in such states again: both with
results that `R` relates, or both with errors that `F` relates. -/
def Parallel (I : σ → τ → Prop) (R : α → β → Prop) (F : ε → ε' → Prop)
    (x : ExceptT ε (StateM σ) α) (y : ExceptT ε' (StateM τ) β) : Prop :=
  ∀ s t, I s t →
    match x s, y t with
    | (.ok a, s'), (.ok b, t') => R a b ∧ I s' t'
    | (.error e, s'), (.error e', t') => F e e' ∧ I s' t'
    | _, _ => False

variable {I : σ → τ → Prop} {R : α → β → Prop} {F : ε → ε' → Prop} {Q : γ → δ → Prop}
  {x : ExceptT ε (StateM σ) α} {y : ExceptT ε' (StateM τ) β}

theorem parallel_pure {a : α} {b : β} (h : R a b) :
    Parallel I R F (pure a : ExceptT ε (StateM σ) α) (pure b : ExceptT ε' (StateM τ) β) :=
  fun _ _ related => ⟨h, related⟩

/-- Two failures are parallel if they are related. -/
theorem parallel_throw {e : ε} {e' : ε'} (h : F e e') :
    Parallel I R F (throw e : ExceptT ε (StateM σ) α) (throw e' : ExceptT ε' (StateM τ) β) :=
  fun _ _ related => ⟨h, related⟩

namespace Parallel

/-- Two related states, and the two ways in which the computations can end there. -/
theorem ends (h : Parallel I R F x y) {s : σ} {t : τ} (related : I s t) :
    (∃ a b s' t', x s = (.ok a, s') ∧ y t = (.ok b, t') ∧ R a b ∧ I s' t') ∨
      ∃ e e' s' t', x s = (.error e, s') ∧ y t = (.error e', t') ∧ F e e' ∧ I s' t' := by
  have ended := h s t related
  rcases left : x s with ⟨r, s'⟩
  rcases right : y t with ⟨r', t'⟩
  rw [left, right] at ended
  cases r with
  | ok a =>
    cases r' with
    | ok b => exact .inl ⟨a, b, s', t', rfl, rfl, ended⟩
    | error => exact ended.elim
  | error e =>
    cases r' with
    | ok => exact ended.elim
    | error e' => exact .inr ⟨e, e', s', t', rfl, rfl, ended⟩

/-- Two sequences are parallel if their steps are, the second ones from related results. -/
theorem bind {f : α → ExceptT ε (StateM σ) γ} {g : β → ExceptT ε' (StateM τ) δ}
    (h : Parallel I R F x y) (next : ∀ a b, R a b → Parallel I Q F (f a) (g b)) :
    Parallel I Q F (x >>= f) (y >>= g) := by
  intro s t related
  obtain ⟨a, b, s', t', left, right, results, later⟩ | ⟨e, e', s', t', left, right, ended⟩ :=
    h.ends related
  · rw [bind_of_ok left, bind_of_ok right]
    exact next a b results s' t' later
  · rw [bind_of_error left, bind_of_error right]
    exact ended

/-- Between two changes of the states the states may be related in another way, which may depend on
what they were before. -/
theorem between {first : σ → σ} {last : Except ε α → σ → σ} {first' : τ → τ}
    {last' : Except ε' β → τ → τ}
    (h : ∀ s t, I s t → ∃ J : σ → τ → Prop, J (first s) (first' t) ∧ Parallel J R F x y ∧
      ∀ s' t', J s' t' → (∀ a b, R a b → I (last (.ok a) s') (last' (.ok b) t')) ∧
        ∀ e e', F e e' → I (last (.error e) s') (last' (.error e') t')) :
    Parallel I R F (TexAlgebra.between first last x) (TexAlgebra.between first' last' y) := by
  intro s t related
  obtain ⟨J, entered, inner, left⟩ := h s t related
  have run : TexAlgebra.between first last x s =
    ((x (first s)).1, last (x (first s)).1 (x (first s)).2) := rfl
  have run' : TexAlgebra.between first' last' y t =
    ((y (first' t)).1, last' (y (first' t)).1 (y (first' t)).2) := rfl
  rw [run, run']
  obtain ⟨a, b, s', t', hx, hy, results, later⟩ | ⟨e, e', s', t', hx, hy, errors, later⟩ :=
    inner.ends entered
  · rw [hx, hy]
    exact ⟨results, (left s' t' later).1 a b results⟩
  · rw [hx, hy]
    exact ⟨errors, (left s' t' later).2 e e' errors⟩

end Parallel

/-- Whether two computations have results that `R` relates, or fail with the same error. -/
inductive Corresponds (R : α → β → Prop) : Except ε α → Except ε β → Prop
  | ok {a : α} {b : β} (h : R a b) : Corresponds R (.ok a) (.ok b)
  | error (e : ε) : Corresponds R (.error e) (.error e)

/-- Every result corresponds to itself. -/
theorem corresponds_refl (x : Except ε α) : Corresponds Eq x x := by
  cases x with
  | error e => exact .error e
  | ok a => exact .ok rfl

/-- Two sequences correspond if their steps do, the second ones from related results. -/
theorem Corresponds.bind {x : Except ε α} {y : Except ε β} {f : α → Except ε γ}
    {g : β → Except ε δ} (h : Corresponds R x y)
    (next : ∀ a b, R a b → Corresponds Q (f a) (g b)) : Corresponds Q (x >>= f) (y >>= g) := by
  cases h with
  | ok related => exact next _ _ related
  | error e => exact .error e

end TexAlgebra
