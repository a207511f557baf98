import TexAlgebra.Proofs.Computation
import TexAlgebra.Proofs.Sourced.Expression
/-!
# Bindings of a session

If the variables that are bound come from the texts of a session, then looking one up and binding
one can fail only for a number in a subscript. `Sources` is what checking and evaluation have in
common: they keep to the texts, and their failures come from them.
-/

namespace TexAlgebra

open TexAlgebra.Expr

variable {S : Token → Prop} {α : Type}

namespace Scope

/-- Whether all variables that a scope binds come from texts. -/
def IsSourced (S : Token → Prop) (s : Scope α) : Prop := ∀ b ∈ s, b.1.IsSourced S

variable {s : Scope α} {x : Expr} {a : α}

/-- To look for what matches fails only for a number of the texts. -/
theorem IsSourced.failsWith_firstMatch? (h : s.IsSourced S) (hx : x.IsSourced S) :
    FailsWith (Obstacle.IsOfNumber (numbersOf S)) (s.firstMatch? x) := by
  induction s with
  | nil =>
    rw [firstMatch?]
    exact failsWith_pure
  | cons b s ih =>
    obtain ⟨y, a⟩ := b
    obtain ⟨first, rest⟩ := List.forall_mem_cons.1 h
    rw [firstMatch?]
    refine (first.failsWith_matchesWith hx).bind fun found _ => ?_
    split
    · exact failsWith_pure
    · exact ih rest

theorem IsSourced.failsWith_lookup (h : s.IsSourced S) (hx : x.IsSourced S) :
    FailsWith (Obstacle.IsOfNumber (numbersOf S)) (s.lookup x) := by
  rw [lookup]
  split
  · exact failsWith_pure
  · exact h.failsWith_firstMatch? hx

/-- To erase a variable fails only for a number of the texts. -/
theorem IsSourced.failsWith_erase (h : s.IsSourced S) (hx : x.IsSourced S) :
    FailsWith (Obstacle.IsOfNumber (numbersOf S)) (s.erase x) := by
  induction s with
  | nil =>
    rw [erase]
    exact failsWith_pure
  | cons b s ih =>
    obtain ⟨y, a⟩ := b
    obtain ⟨first, rest⟩ := List.forall_mem_cons.1 h
    rw [erase]
    exact (first.failsWith_matchesWith hx).bind fun _ _ =>
      (ih rest).bind fun _ _ => failsWith_pure

theorem IsSourced.failsWith_set (h : s.IsSourced S) (hx : x.IsSourced S) :
    FailsWith (Obstacle.IsOfNumber (numbersOf S)) (s.set x a) :=
  (h.failsWith_erase hx).bind fun _ _ => failsWith_pure

end Scope

namespace Environment

/-- Whether all variables that are bound come from texts, and all their values have the property
`A`. -/
def IsSourced (S : Token → Prop) (A : α → Prop) (env : Environment α) : Prop :=
  env.AllBindings fun x a => x.IsSourced S ∧ A a

variable {A : α → Prop} {env env' : Environment α} {x : Expr} {a : α}

/-- Where nothing is bound all comes from the texts. -/
theorem isSourced_empty : (empty : Environment α).IsSourced S A := allBindings_empty

theorem IsSourced.failsWith_lookup (h : env.IsSourced S A) (hx : x.IsSourced S) :
    FailsWith (Obstacle.IsOfNumber (numbersOf S)) (env.lookup x) := by
  rw [lookup]
  rw [IsSourced, AllBindings] at h
  revert h
  induction env.scopes ++ [env.globals] with
  | nil => exact fun _ => failsWith_pure
  | cons s outer ih =>
    intro h
    obtain ⟨first, rest⟩ := List.forall_mem_cons.1 h
    have keys : s.IsSourced S := fun b hb => (first b hb).1
    rw [lookupIn]
    refine (keys.failsWith_lookup hx).bind fun found _ => ?_
    cases found with
    | some a => exact failsWith_pure
    | none => exact ih rest

/-- What is found comes from the texts. -/
theorem IsSourced.of_lookup (h : env.IsSourced S A) (found : env.lookup x = .ok (some a)) :
    A a := by
  obtain ⟨-, -, -, property⟩ := AllBindings.of_lookup h found
  exact property

theorem IsSourced.failsWith_set (h : env.IsSourced S A) (hx : x.IsSourced S) :
    FailsWith (Obstacle.IsOfNumber (numbersOf S)) (env.set x a) := by
  obtain ⟨globals, scopes⟩ := env
  cases scopes with
  | nil =>
    have keys : globals.IsSourced S := fun b hb =>
      (h globals (List.mem_singleton_self _) b hb).1
    exact (keys.failsWith_set hx).bind fun _ _ => failsWith_pure
  | cons s outer =>
    have keys : s.IsSourced S := fun b hb => (h s List.mem_cons_self b hb).1
    exact (keys.failsWith_set hx).bind fun _ _ => failsWith_pure

/-- What is set comes from the texts if its variable and its value do. -/
theorem IsSourced.set (h : env.IsSourced S A) (hx : x.IsSourced S) (ha : A a)
    (changed : env.set x a = .ok env') : env'.IsSourced S A :=
  AllBindings.set h ⟨hx, ha⟩ changed

/-- To set several variables fails only for a number of the texts. -/
theorem IsSourced.failsWith_setAll {bindings : Scope α} (h : env.IsSourced S A)
    (all : ∀ b ∈ bindings, b.1.IsSourced S ∧ A b.2) :
    FailsWith (Obstacle.IsOfNumber (numbersOf S)) (env.setAll bindings) := by
  induction bindings generalizing env with
  | nil => exact failsWith_pure
  | cons b bindings ih =>
    obtain ⟨y, a⟩ := b
    obtain ⟨⟨hy, ha⟩, rest⟩ := List.forall_mem_cons.1 all
    rw [setAll]
    exact (h.failsWith_set hy).bind fun env' changed => ih (h.set hy ha changed) rest

/-- To set several variables adds nothing that does not come from the texts. -/
theorem IsSourced.setAll {bindings : Scope α} (h : env.IsSourced S A)
    (all : ∀ b ∈ bindings, b.1.IsSourced S ∧ A b.2) (changed : env.setAll bindings = .ok env') :
    env'.IsSourced S A :=
  AllBindings.setAll h all changed

/-- A new scope adds nothing. -/
theorem IsSourced.push (h : env.IsSourced S A) : env.push.IsSourced S A := AllBindings.push h

/-- To leave a scope adds nothing. -/
theorem IsSourced.leave (h : env.IsSourced S A) : env.leave.IsSourced S A := AllBindings.leave h

/-- To leave all scopes adds nothing. -/
theorem IsSourced.unwind (h : env.IsSourced S A) : env.unwind.IsSourced S A := AllBindings.unwind h

end Environment

/-! ## Computations that keep to the texts -/

/-- Whether a failure blames a token of `S` or the product in front of one, or comes from too many
calls or from a number. -/
def Failure.IsSourced (S : Token → Prop) : Failure → Prop
  | .fault f => IsPlaced S f.token
  | .obstacle o => o = .tooDeep ∨ o.IsOfNumber (numbersOf S)

variable {β σ : Type} {I : σ → Prop} {Q : α → Prop} {R : β → Prop}

/-- Whether a computation keeps `I`, and ends with a result that has the property `Q` or with a
failure that comes from `S`. -/
def Sources (S : Token → Prop) (I : σ → Prop) (x : ExceptT Failure (StateM σ) α)
    (Q : α → Prop) : Prop :=
  ∀ s, I s → Ends x s (fun a t => I t ∧ Q a) fun failure t => I t ∧ failure.IsSourced S

theorem sources_pure {a : α} (h : Q a) : Sources S I (pure a) Q := fun _ hs => ends_pure ⟨hs, h⟩

/-- A failure that cites the texts keeps to them. -/
theorem sources_throw {failure : Failure} (h : failure.IsSourced S) :
    Sources S I (throw failure : ExceptT Failure (StateM σ) α) Q :=
  fun _ hs => ends_throw ⟨hs, h⟩

/-- Want of room cites nothing. -/
theorem sources_nested {room : Room} {step : Room → ExceptT Failure (StateM σ) α}
    (h : ∀ room, Sources S I (step room) Q) :
    Sources S I (room.nested (throw (.obstacle .tooDeep)) step) Q :=
  fun s hs => ends_nested ⟨hs, .inl rfl⟩ fun room => h room s hs

/-- A sequence keeps to the texts if both of its steps do. -/
theorem Sources.bind {x : ExceptT Failure (StateM σ) α} {f : α → ExceptT Failure (StateM σ) β}
    (h : Sources S I x Q) (next : ∀ a, Q a → Sources S I (f a) R) : Sources S I (x >>= f) R :=
  fun s hs => (h s hs).bind fun a t h => next a h.2 t h.1

end TexAlgebra
