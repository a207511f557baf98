import TexAlgebra.Expr.Printer
import TexAlgebra.Proofs.Computation
/-!
# Computations in less room

Whether there is enough room for a computation decides how far it gets, and not what it comes to: in
less room it either ends early, because there is too little, or it ends in the same way. `Abridges`
says this of two computations, and the lemmas here of the steps that evaluation and checking have in
common.
-/

namespace TexAlgebra

variable {σ α β : Type}

/-- Whether `x` does what `y` does wherever `x` does not fail for want of room. -/
def Abridges (x y : ExceptT Failure (StateM σ) α) : Prop :=
  ∀ s, (∃ t, x s = (.error (.obstacle .tooDeep), t)) ∨ x s = y s

theorem abridges_refl (x : ExceptT Failure (StateM σ) α) : Abridges x x := fun _ => .inr rfl

/-- What there is no room for at all. -/
theorem abridges_tooDeep (y : ExceptT Failure (StateM σ) α) :
    Abridges (throw (.obstacle .tooDeep)) y :=
  fun s => .inl ⟨s, rfl⟩

variable {x y : ExceptT Failure (StateM σ) α} {room room' : Room}

/-- A sequence is abridged if both of its steps are. -/
theorem Abridges.bind {f g : α → ExceptT Failure (StateM σ) β} (h : Abridges x y)
    (next : ∀ a, Abridges (f a) (g a)) : Abridges (x >>= f) (y >>= g) := by
  intro s
  obtain ⟨t, failed⟩ | same := h s
  · exact .inl ⟨t, bind_of_error failed⟩
  · rcases result : y s with ⟨_ | a, t⟩
    · rw [result] at same
      exact .inr ((bind_of_error same).trans (bind_of_error result).symm)
    · rw [result] at same
      rw [bind_of_ok same, bind_of_ok result]
      exact next a t

/-- With less room inside a step is abridged. -/
theorem abridges_nested (le : room ≤ room') {step step' : Room → ExceptT Failure (StateM σ) α}
    (next : ∀ r r', r ≤ r' → Abridges (step r) (step' r')) :
    Abridges (room.nested (throw (.obstacle .tooDeep)) step)
      (room'.nested (throw (.obstacle .tooDeep)) step') := by
  cases room with
  | unbounded =>
    cases room' with
    | unbounded => exact next _ _ (Room.le_refl _)
    | levels n => exact absurd le (Room.not_unbounded_le n)
  | levels m =>
    cases m with
    | zero => exact abridges_tooDeep _
    | succ m =>
      cases room' with
      | unbounded => exact next _ _ (Room.le_unbounded _)
      | levels n =>
        have lt := Room.levels_le_levels.1 le
        obtain ⟨n, rfl⟩ := Nat.exists_eq_succ_of_ne_zero (Nat.ne_zero_of_lt lt)
        exact next _ _ (Room.levels_le_levels.2 (Nat.succ_le_succ_iff.1 lt))

/-- Without a bound every expression is written out in whole. -/
theorem texWithin_unbounded (style : Style) (e : Expr) :
    e.texWithin .unbounded style = e.tex style :=
  if_pos rfl

/-- What is written out is the same in any room for it. -/
theorem texWithin_of_le (le : room ≤ room') (style : Style) (e : Expr) :
    e.texWithin room style = .error .tooDeep ∨
      e.texWithin room style = e.texWithin room' style := by
  rw [Expr.texWithin, Expr.texWithin]
  split
  · next fits => exact .inr (by rw [if_pos (le _ fits)])
  · exact .inl rfl

/-- Where a last step is left out for want of room, the computation fails for want of room too. -/
theorem Abridges.between_unless {first last : σ → σ} (h : Abridges x y) :
    Abridges
      (between first (fun result t => if ranOut result && !room.holds 1 then t else last t) x)
      (between first (fun result t => if ranOut result && !room'.holds 1 then t else last t)
        y) := by
  intro s
  have ended (last : Except Failure α → σ → σ) (z : ExceptT Failure (StateM σ) α) :
      between first last z s = ((z (first s)).1, last (z (first s)).1 (z (first s)).2) := rfl
  rw [ended, ended]
  obtain ⟨t, failed⟩ | same := h (first s)
  · exact .inl ⟨_, by rw [failed]⟩
  · rw [same]
    rcases result : y (first s) with ⟨failure | a, t⟩
    · by_cases out : ranOut (.error failure : Except Failure α) = true
      · rcases failure with fault | o
        · cases out
        · cases o with
          | tooDeep => exact .inl ⟨_, rfl⟩
          | _ => cases out
      · right
        simp only [out, Bool.false_and]
    · exact .inr rfl

/-- A result that is reached in some room is reached in more. -/
theorem Abridges.of_ok (h : Abridges x y) {s t : σ} {a : α} (result : x s = (.ok a, t)) :
    y s = (.ok a, t) := by
  obtain ⟨t', failed⟩ | same := h s
  · rw [failed] at result
    cases result
  · rw [← same, result]

/-- What differs from the computation where there is room for any number of levels ended early. -/
theorem ranOut_or_eq {step : Room → ExceptT Failure (StateM σ) α}
    (h : Abridges (step room) (step .unbounded)) (s : σ) :
    room ≠ .unbounded ∧ ranOut (step room s).1 = true ∨ step room s = step .unbounded s := by
  cases room with
  | unbounded => exact .inr rfl
  | levels n =>
    obtain ⟨t, failed⟩ | same := h s
    · exact .inl ⟨nofun, by rw [failed]; rfl⟩
    · exact .inr same

end TexAlgebra
