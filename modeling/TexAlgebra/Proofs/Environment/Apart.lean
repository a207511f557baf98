import TexAlgebra.Proofs.Computation.Parallel
import TexAlgebra.Proofs.Environment
import TexAlgebra.Proofs.Equality
/-!
# Bindings that make no difference

A variable that no comparison takes for another one is apart from it (`Expr.IsApart`). If `h` is
apart from all variables that are bound, then further bindings of `h` make no difference to them:
every other variable is found as before and is bound as before (`Environment.Adds`).
-/

namespace TexAlgebra

variable {α : Type} {h x : Expr} {a : α}

/-- Whether `x` is taken for another variable than `h`, whichever of the two is looked for. -/
structure Expr.IsApart (h x : Expr) : Prop where
  different : (h == x) = false
  forth : h.matchesWith x = .ok false
  back : x.matchesWith h = .ok false

/-- A variable is apart from what is no variable. -/
theorem Expr.isApart_of_isVariable (variable_h : h.isVariable = true)
    (other : x.isVariable = false) : h.IsApart x := by
  cases h with
  | var name subscripts token =>
    cases x with
    | var => cases other
    | _ =>
      constructor
      · rfl
      all_goals
        simp [matchesWith]
        rfl
  | _ => cases variable_h

namespace Scope

/-- Whether a scope comes about from another one when bindings of `h` are put in between, and `h` is
apart from all variables that are bound there. -/
inductive Adds (h : Expr) : Scope α → Scope α → Prop
  | nil : Adds h [] []
  | kept {x : Expr} {a : α} {s s' : Scope α} (apart : h.IsApart x) (rest : Adds h s s') :
    Adds h ((x, a) :: s) ((x, a) :: s')
  | added {a : α} {s s' : Scope α} (rest : Adds h s s') : Adds h s ((h, a) :: s')

variable {s s' : Scope α}

theorem Adds.refl (apart : ∀ b ∈ s, h.IsApart b.1) : Adds h s s := by
  induction s with
  | nil => exact .nil
  | cons b s ih =>
    obtain ⟨first, others⟩ := List.forall_mem_cons.1 apart
    exact .kept first (ih others)

/-- Bindings can be added to both parts of a scope. -/
theorem Adds.append {t t' : Scope α} (first : Adds h s s') (second : Adds h t t') :
    Adds h (s ++ t) (s' ++ t') := by
  induction first with
  | nil => exact second
  | kept apart _ ih => exact .kept apart ih
  | added _ ih => exact .added ih

/-- What is apart from `h` matches none of the added bindings. -/
theorem Adds.firstMatch?_eq (adds : Adds h s s') (apart : h.IsApart x) :
    s'.firstMatch? x = s.firstMatch? x := by
  induction adds with
  | nil => rfl
  | kept _ _ ih => rw [firstMatch?, firstMatch?, ih]
  | added _ ih =>
    rw [firstMatch?, apart.forth]
    exact ih

/-- What is apart from `h` is equal to none of the added variables. -/
theorem Adds.find?_eq (adds : Adds h s s') (apart : h.IsApart x) :
    s'.find? (·.1 == x) = s.find? (·.1 == x) := by
  induction adds with
  | nil => rfl
  | kept _ _ ih => rw [List.find?_cons, List.find?_cons, ih]
  | added _ ih =>
    rw [List.find?_cons, apart.different]
    exact ih

/-- What is apart from `h` is found as if nothing had been added. -/
theorem Adds.lookup_eq (adds : Adds h s s') (apart : h.IsApart x) :
    s'.lookup x = s.lookup x := by
  rw [lookup, lookup, adds.find?_eq apart, adds.firstMatch?_eq apart]

/-- What is bound apart from `h` is taken out as before. -/
theorem Adds.erase (adds : Adds h s s') (apart : h.IsApart x) :
    Corresponds (Adds h) (s.erase x) (s'.erase x) := by
  induction adds with
  | nil => exact .ok .nil
  | kept kept _ ih =>
    rw [Scope.erase, Scope.erase]
    refine (corresponds_refl _).bind ?_
    rintro found _ rfl
    refine ih.bind fun r r' adds => ?_
    cases found with
    | true => exact .ok adds
    | false => exact .ok (.kept kept adds)
  | added _ ih =>
    rw [Scope.erase.eq_2, apart.forth, ← bind_pure (Scope.erase x _)]
    exact ih.bind fun _ _ adds => .ok (.added adds)

/-- What is apart from `h` is set as if nothing had been added. -/
theorem Adds.set (adds : Adds h s s') (apart : h.IsApart x) (a : α) :
    Corresponds (Adds h) (s.set x a) (s'.set x a) :=
  (adds.erase apart).bind fun _ _ adds => .ok (adds.append (.kept apart .nil))

/-! ## The binding itself -/

/-- Where nothing has to do with `h` there is no binding of it to erase. -/
theorem erase_of_apart (apart : ∀ b ∈ s, h.IsApart b.1) : s.erase h = .ok s := by
  induction s with
  | nil => rfl
  | cons b s ih =>
    obtain ⟨first, others⟩ := List.forall_mem_cons.1 apart
    rw [erase, first.back, ih others]
    rfl

/-- Where nothing has to do with `h` a binding of it goes to the end. -/
theorem set_of_apart (apart : ∀ b ∈ s, h.IsApart b.1) (a : α) :
    s.set h a = .ok (s ++ [(h, a)]) := by
  rw [set, erase_of_apart apart]
  rfl

/-- After `h` was bound, it is found. -/
theorem lookup_append (apart : ∀ b ∈ s, h.IsApart b.1) (a : α) :
    Scope.lookup h (s ++ [(h, a)]) = .ok (some a) := by
  have absent : s.find? (·.1 == h) = none :=
    List.find?_eq_none.2 fun b hb same => by
      have reversed := BEq.symm same
      rw [(apart b hb).different] at reversed
      cases reversed
  have found : (s ++ [(h, a)]).find? (·.1 == h) = some (h, a) := by
    simp [List.find?_append, absent]
  rw [lookup, found]
  rfl

end Scope

namespace Environment

/-- Whether an environment comes about from another one when bindings of `h` are put in between, and
`h` is apart from all variables that are bound there. -/
structure Adds (h : Expr) (env env' : Environment α) : Prop where
  globals : Scope.Adds h env.globals env'.globals
  scopes : List.Forall₂ (Scope.Adds h) env.scopes env'.scopes

variable {env env' : Environment α}

theorem Adds.refl (apart : env.AllBindings fun x _ => h.IsApart x) : Adds h env env where
  globals := .refl (apart _ (List.mem_append_right _ (List.mem_singleton_self _)))
  scopes := List.forall₂_same.2 fun s hs => .refl (apart s (List.mem_append_left _ hs))

theorem Adds.push (adds : Adds h env env') : Adds h env.push env'.push where
  globals := adds.globals
  scopes := .cons .nil adds.scopes

theorem Adds.leave (adds : Adds h env env') : Adds h env.leave env'.leave where
  globals := adds.globals
  scopes := List.forall₂_drop 1 adds.scopes

theorem lookupIn_eq {scopes scopes' : List (Scope α)}
    (adds : List.Forall₂ (Scope.Adds h) scopes scopes') (apart : h.IsApart x) :
    lookupIn x scopes' = lookupIn x scopes := by
  induction adds with
  | nil => rfl
  | cons first _ ih => rw [lookupIn, lookupIn, first.lookup_eq apart, ih]

theorem Adds.lookup_eq (adds : Adds h env env') (apart : h.IsApart x) :
    env'.lookup x = env.lookup x :=
  lookupIn_eq (List.rel_append adds.scopes (.cons adds.globals .nil)) apart

theorem Adds.set (adds : Adds h env env') (apart : h.IsApart x) (a : α) :
    Corresponds (Adds h) (env.set x a) (env'.set x a) := by
  obtain ⟨globals, scopes⟩ := env
  obtain ⟨globals', scopes'⟩ := env'
  obtain ⟨bottom, above⟩ := adds
  dsimp only at above
  cases above with
  | nil => exact (bottom.set apart a).bind fun _ _ adds => .ok ⟨adds, .nil⟩
  | cons inner outer =>
    exact (inner.set apart a).bind fun _ _ adds => .ok ⟨bottom, .cons adds outer⟩

theorem Adds.setAll {bindings : Scope α} (adds : Adds h env env')
    (apart : ∀ b ∈ bindings, h.IsApart b.1) :
    Corresponds (Adds h) (env.setAll bindings) (env'.setAll bindings) := by
  induction bindings generalizing env env' with
  | nil => exact .ok adds
  | cons b bindings ih =>
    obtain ⟨first, others⟩ := List.forall_mem_cons.1 apart
    exact (adds.set first b.2).bind fun _ _ adds => ih adds others

/-- A variable that is apart from all that are bound can be bound, and then it is found. -/
theorem set_of_apart (apart : env.AllBindings fun x _ => h.IsApart x) (a : α) :
    ∃ env', env.set h a = .ok env' ∧ env'.lookup h = .ok (some a) ∧ Adds h env env' := by
  have kept := Adds.refl apart
  obtain ⟨globals, scopes⟩ := env
  cases scopes with
  | nil =>
    have apart := apart globals (List.mem_singleton_self _)
    have found : lookup ⟨globals ++ [(h, a)], []⟩ h = .ok (some a) := by
      rw [lookup, List.nil_append, lookupIn, Scope.lookup_append apart]
      rfl
    have made : set ⟨globals, []⟩ h a = .ok ⟨globals ++ [(h, a)], []⟩ := by
      simp only [set, Scope.set_of_apart apart]
      rfl
    refine ⟨_, made, found, ?_, .nil⟩
    simpa using kept.globals.append (.added .nil)
  | cons s outer =>
    have apart := apart s List.mem_cons_self
    have found : lookup ⟨globals, (s ++ [(h, a)]) :: outer⟩ h = .ok (some a) := by
      rw [lookup, List.cons_append, lookupIn, Scope.lookup_append apart]
      rfl
    have made : set ⟨globals, s :: outer⟩ h a = .ok ⟨globals, (s ++ [(h, a)]) :: outer⟩ := by
      simp only [set, Scope.set_of_apart apart]
      rfl
    refine ⟨_, made, found, kept.globals, ?_⟩
    cases kept.scopes with
    | cons inner others => exact .cons (by simpa using inner.append (.added .nil)) others

end Environment

end TexAlgebra
