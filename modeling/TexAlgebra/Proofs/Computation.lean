import TexAlgebra.Fault
/-!
# Results of computations

A computation made of parts has a result only if its parts have results. These lemmas take apart
the computations that can fail; `Results` is what they have in common with computations on a state.
`Ends` says of a computation on a state how it ends, whether it has a result or fails.
-/

namespace TexAlgebra

variable {α β ε : Type}

theorem ok_of_bind {x : Except ε α} {f : α → Except ε β} {b : β} (h : (x >>= f) = .ok b) :
    ∃ a, x = .ok a ∧ f a = .ok b := by
  cases x with
  | error e => cases h
  | ok a => exact ⟨a, rfl, h⟩

theorem ok_of_pure {a b : α} (h : (pure a : Except ε α) = .ok b) : a = b := by
  cases h
  rfl

/-- An operation on decimal numbers that is part of some work has the same result there. -/
theorem Work.ok_of_result {work : Work} {x : Except Decimal.Signal α} {a : α}
    (h : work.result x = .ok a) : x = .ok a := by
  cases x with
  | error signal => cases h
  | ok a =>
    cases h
    rfl

/-! ## Room -/

/-- A room is at most another one if that holds all that it holds itself. -/
instance : LE Room := ⟨fun room room' => ∀ n, room.holds n = true → room'.holds n = true⟩

namespace Room

/-- There is as much room as there is. -/
theorem le_refl (room : Room) : room ≤ room := fun _ h => h

/-- There is no more room than room without a bound. -/
theorem le_unbounded (room : Room) : room ≤ unbounded := fun _ _ => rfl

/-- Room is compared by its levels. -/
theorem levels_le_levels {m n : Nat} : levels m ≤ levels n ↔ m ≤ n := by
  constructor
  · intro h
    simpa [holds] using h m (by simp [holds])
  · intro h k
    simp only [holds, decide_eq_true_eq]
    exact fun le => Nat.le_trans le h

/-- No number of levels is room without a bound. -/
theorem not_unbounded_le (n : Nat) : ¬unbounded ≤ levels n := by
  intro h
  have held := h (n + 1) rfl
  simp only [holds, decide_eq_true_eq] at held
  exact Nat.not_succ_le_self n held

/-- Where there is room for a part, there is room for less. -/
theorem holds_mono {room : Room} {m n : Nat} (h : room.holds n = true) (le : m ≤ n) :
    room.holds m = true := by
  cases room with
  | unbounded => rfl
  | levels k =>
    simp only [holds, decide_eq_true_eq] at h ⊢
    exact Nat.le_trans le h

/-- A step one level further down is made if there is any room, and one level less is left there. -/
theorem nested_cases (room : Room) : room = levels 0 ∨ ∃ inner : Room,
    (∀ n, inner.holds n = room.holds (n + 1)) ∧
      ∀ (otherwise : α) (step : Room → α), room.nested otherwise step = step inner := by
  cases room with
  | unbounded => exact .inr ⟨unbounded, fun _ => rfl, fun _ _ => rfl⟩
  | levels k =>
    cases k with
    | zero => exact .inl rfl
    | succ k => exact .inr ⟨levels k, fun n => by simp [holds], fun _ _ => rfl⟩

/-- What relates two steps in every room, and their results without any room, relates the steps one
level further down. -/
theorem nested_rel {R : α → β → Prop} {x : α} {y : β} {f : Room → α} {g : Room → β} (deep : R x y)
    (next : ∀ inner, R (f inner) (g inner)) (room : Room) :
    R (room.nested x f) (room.nested y g) := by
  cases room with
  | unbounded => exact next unbounded
  | levels k =>
    cases k with
    | zero => exact deep
    | succ k => exact next (levels k)

end Room

/-! ## Results in general -/

/-- What the results of a kind of computation are: `result x a` says that `x` can have the result
`a`. -/
structure Results (m : Type → Type) [Monad m] where
  result : ∀ {α : Type}, m α → α → Prop
  of_pure : ∀ {α : Type} {a b : α}, result (pure a) b → a = b
  of_bind : ∀ {α β : Type} {x : m α} {f : α → m β} {b : β}, result (x >>= f) b →
    ∃ a, result x a ∧ result (f a) b

/-- The results of computations that can fail. -/
def Results.ofExcept (ε : Type) : Results (Except ε) where
  result x a := x = .ok a
  of_pure := ok_of_pure
  of_bind := ok_of_bind

/-- The results of computations that can fail and change a state, from any state. -/
def Results.ofState (σ ε : Type) : Results (StateT σ (Except ε)) where
  result x a := ∃ s t, x s = .ok (a, t)
  of_pure := by
    rintro α a b ⟨s, t, h⟩
    cases h
    rfl
  of_bind := by
    rintro α β x f b ⟨s, t, h⟩
    obtain ⟨⟨a, r⟩, first, second⟩ := ok_of_bind h
    exact ⟨a, ⟨s, r, first⟩, r, t, second⟩

/-! ## Computations on a state -/

section

variable {σ : Type} {s t : σ}

theorem bind_of_ok {x : ExceptT ε (StateM σ) α} {f : α → ExceptT ε (StateM σ) β} {a : α}
    (h : x s = (.ok a, t)) : (x >>= f) s = f a t := by
  show ExceptT.bindCont f (x s).1 (x s).2 = _
  rw [h]
  rfl

theorem bind_of_error {x : ExceptT ε (StateM σ) α} {f : α → ExceptT ε (StateM σ) β} {e : ε}
    (h : x s = (.error e, t)) : (x >>= f) s = (.error e, t) := by
  show ExceptT.bindCont f (x s).1 (x s).2 = _
  rw [h]
  rfl

/-- A computation on a state that succeeds is made of parts that succeed, each in the state that the
part before it left behind. -/
theorem ok_of_bind_state {x : ExceptT ε (StateM σ) α} {f : α → ExceptT ε (StateM σ) β} {b : β}
    (h : (x >>= f) s = (.ok b, t)) : ∃ a r, x s = (.ok a, r) ∧ f a r = (.ok b, t) := by
  cases hx : x s with
  | mk result r =>
    cases result with
    | error e =>
      rw [bind_of_error hx] at h
      cases h
    | ok a =>
      rw [bind_of_ok hx] at h
      exact ⟨a, r, rfl, h⟩

/-- A step one level further down that has a result was made, with whatever room was left. -/
theorem ok_of_nested {room : Room} {e : ε} {step : Room → ExceptT ε (StateM σ) α} {a : α}
    (h : room.nested (throw e) step s = (.ok a, t)) : ∃ room, step room s = (.ok a, t) := by
  cases room with
  | unbounded => exact ⟨_, h⟩
  | levels n =>
    cases n with
    | zero => cases h
    | succ n => exact ⟨_, h⟩

/-- How a computation ends from the state `s`: `post` holds of its result and the state then, or
`fail` of its error and the state then. -/
def Ends (x : ExceptT ε (StateM σ) α) (s : σ) (post : α → σ → Prop) (fail : ε → σ → Prop) : Prop :=
  match x s with
  | (.ok a, t) => post a t
  | (.error e, t) => fail e t

variable {x : ExceptT ε (StateM σ) α} {mid : α → σ → Prop} {post : β → σ → Prop}
  {fail : ε → σ → Prop}

theorem ends_pure {a : α} (h : mid a s) : Ends (pure a) s mid fail := h

theorem ends_throw {e : ε} (h : fail e s) : Ends (throw e) s mid fail := h

/-- A step one level further down ends like the step itself, or there was no room for it. -/
theorem ends_nested {room : Room} {e : ε} {step : Room → ExceptT ε (StateM σ) α} (h : fail e s)
    (next : ∀ room, Ends (step room) s mid fail) :
    Ends (room.nested (throw e) step) s mid fail := by
  cases room with
  | unbounded => exact next _
  | levels n =>
    cases n with
    | zero => exact ends_throw h
    | succ n => exact next _

/-- A sequence ends as its second step does behind the first. -/
theorem Ends.bind {f : α → ExceptT ε (StateM σ) β} (h : Ends x s mid fail)
    (next : ∀ a t, mid a t → Ends (f a) t post fail) : Ends (x >>= f) s post fail := by
  rw [Ends] at h
  split at h
  · next a t result =>
    rw [Ends, bind_of_ok result]
    exact next a t h
  · next e t result =>
    rw [Ends, bind_of_error result]
    exact h

/-- Carries out `x` between two changes of the state. The last one is made even if `x` fails, and it
may depend on what came of `x`. -/
def between (first : σ → σ) (last : Except ε α → σ → σ) (x : ExceptT ε (StateM σ) α) :
    ExceptT ε (StateM σ) α :=
  ExceptT.mk do
    modify first
    let result ← x.run
    modify (last result)
    return result

/-- A computation between two changes of the state ends as it does there, up to the changes. -/
theorem ends_between {first : σ → σ} {last : Except ε α → σ → σ}
    (h : Ends x (first s) (fun a t => mid a (last (.ok a) t)) fun e t =>
      fail e (last (.error e) t)) :
    Ends (between first last x) s mid fail := by
  have ended : between first last x s =
    ((x (first s)).1, last (x (first s)).1 (x (first s)).2) := rfl
  rw [Ends] at h
  split at h
  all_goals
    next result =>
      rw [Ends, ended, result]
      exact h

/-- What holds at the end holds if it follows from what does. -/
theorem Ends.mono {mid' : α → σ → Prop} {fail' : ε → σ → Prop} (h : Ends x s mid fail)
    (ok : ∀ a t, mid a t → mid' a t) (error : ∀ e t, fail e t → fail' e t) :
    Ends x s mid' fail' := by
  rw [Ends] at h ⊢
  split at h
  · exact ok _ _ h
  · exact error _ _ h

/-- Where the last change is not made if there was no room left, it has to be allowed for that it
was not. -/
theorem ends_between_unless (first last : σ → σ) {x : ExceptT Failure (StateM σ) α} {room : Room}
    {mid : α → σ → Prop} {fail : Failure → σ → Prop}
    (h : Ends x (first s) (fun a t => mid a (last t)) fun e t =>
      fail e (last t) ∧ (e = .obstacle .tooDeep → room = .levels 0 → fail e t)) :
    Ends (between first (fun result t => if ranOut result && !room.holds 1 then t else last t) x) s
      mid fail := by
  refine ends_between (h.mono (fun a t h => ?_) fun e t h => ?_)
  · exact h
  · split
    · next open_ =>
      rw [Bool.and_eq_true, Bool.not_eq_true'] at open_
      refine h.2 ?_ ?_
      · revert open_
        cases e with
        | fault => exact fun open_ => absurd open_.1 Bool.false_ne_true
        | obstacle o => cases o <;> simp [ranOut]
      · revert open_
        cases room with
        | unbounded => simp [Room.holds]
        | levels n => simp [Room.holds]
    · exact h.1

/-- Two things that hold at the end hold together. -/
theorem Ends.and {mid' : α → σ → Prop} {fail' : ε → σ → Prop} (h : Ends x s mid fail)
    (h' : Ends x s mid' fail') :
    Ends x s (fun a t => mid a t ∧ mid' a t) fun e t => fail e t ∧ fail' e t := by
  rw [Ends] at h h' ⊢
  split
  all_goals
    next result =>
      rw [result] at h h'
      exact ⟨h, h'⟩

/-- A property of the state in which a computation ends, however it ends. -/
theorem Ends.state {P : σ → Prop} (h : Ends x s (fun _ => P) fun _ => P) : P (x s).2 := by
  rw [Ends] at h
  split at h
  all_goals
    next result =>
      rw [result]
      exact h

/-- What is known about the state at the end holds however it ends. -/
theorem Ends.of_state {P : σ → Prop} (h : P (x s).2) : Ends x s (fun _ => P) fun _ => P := by
  rw [Ends]
  split
  all_goals
    next result =>
      rw [result] at h
      exact h

/-- What holds at the end holds for the result. -/
theorem Ends.of_ok {a : α} (h : Ends x s mid fail) (result : x s = (.ok a, t)) : mid a t := by
  rw [Ends, result] at h
  exact h

/-- What holds at the end holds for the failure. -/
theorem Ends.of_error {e : ε} (h : Ends x s mid fail) (result : x s = (.error e, t)) :
    fail e t := by
  rw [Ends, result] at h
  exact h

end

end TexAlgebra
