import TexAlgebra.Proofs.Environment.Mapped
/-!
# A scope on top of an environment

The bindings that are made during a call go to the scope of the call, whatever scopes are below it.
So what an environment with one more scope does to that scope does not depend on the scopes below
(`Environment.setAll_inner`), and only what the scope does not bind is looked up there
(`Environment.lookup_inner`).
-/

namespace TexAlgebra

variable {α : Type}

namespace Expr

/-- A plain name matches itself and nothing else, and no number is compared to find out. -/
theorem name_matchesWith (name : String) (token : Option Token) (x : Expr) :
    (var name [] token).matchesWith x = .ok (x.name? = some name) := by
  cases x with
  | var n subscripts t =>
    cases subscripts with
    | nil =>
      by_cases h : n = name
      · simp [matchesWith, matchesAll, matchesEach, both, name?, h]
        rfl
      · simp [matchesWith, both, name?, h, Ne.symm h]
        rfl
    | cons =>
      by_cases h : n = name
      · simp [matchesWith, matchesAll, both, name?, h]
        rfl
      · simp [matchesWith, both, name?, Ne.symm h]
        rfl
  | _ =>
    rw [matchesWith]
    · rfl
    all_goals
      intros
      simp_all

/-- A name is equal to what is that name, wherever it stands. -/
theorem name_beq (name : String) (token : Option Token) (x : Expr) :
    (var name [] token == x) = decide (x.name? = some name) := by
  show same _ x = _
  cases x with
  | var n subscripts t =>
    cases subscripts with
    | nil =>
      by_cases h : n = name
      · simp [same, sameAll, name?, h]
      · simp [same, name?, h, Ne.symm h]
    | cons => simp [same, sameAll, name?]
  | _ => simp [same, name?]

end Expr

namespace Scope

/-- In a scope that binds plain names only, nothing else is found. -/
theorem lookup_of_plain {s : Scope α} (plain : ∀ b ∈ s, b.1.name?.isSome) (x : Expr) :
    s.lookup x = .ok (x.name?.bind s.named) := by
  cases hx : x.name? with
  | some name =>
    obtain ⟨token, rfl⟩ := Expr.name?_eq_some.1 hx
    exact lookup_name s name token
  | none =>
    have other : s.find? (·.1 == x) = none := by
      refine List.find?_eq_none.2 fun b hb => ?_
      obtain ⟨name, hy⟩ := Option.isSome_iff_exists.1 (plain b hb)
      obtain ⟨token, eq⟩ := Expr.name?_eq_some.1 hy
      rw [eq, Expr.name_beq, hx]
      simp
    rw [lookup, other]
    clear other
    induction s with
    | nil => rfl
    | cons b s ih =>
      obtain ⟨y, a⟩ := b
      obtain ⟨name, hy⟩ := Option.isSome_iff_exists.1 (plain _ List.mem_cons_self)
      obtain ⟨token, rfl⟩ := Expr.name?_eq_some.1 hy
      show firstMatch? x _ = _
      rw [firstMatch?, Expr.name_matchesWith, hx]
      exact ih fun b hb => plain b (List.mem_cons_of_mem _ hb)

/-- What matches no variable of a scope is not found there. -/
theorem firstMatch?_eq_none {s : Scope α} {x : Expr}
    (h : ∀ b ∈ s, b.1.matchesWith x = .ok false) : s.firstMatch? x = .ok none := by
  induction s with
  | nil => rfl
  | cons b s ih =>
    obtain ⟨y, a⟩ := b
    rw [firstMatch?, h _ List.mem_cons_self]
    exact ih fun b hb => h b (List.mem_cons_of_mem _ hb)

/-- A name has a value in a scope if it is bound there. -/
theorem isSome_named {s : Scope α} {name : String} :
    (s.named name).isSome ↔ ∃ b ∈ s, b.1.name? = some name := by
  rw [named, Option.isSome_map, List.find?_isSome]
  simp

/-- To erase a variable of another name leaves a name alone. -/
theorem erase_of_name_ne {s s' : Scope α} {x : Expr} {name : String} (h : s.erase x = .ok s')
    (other : x.name? ≠ some name) : s'.named name = s.named name := by
  induction s generalizing s' with
  | nil =>
    cases h
    rfl
  | cons b s ih =>
    obtain ⟨y, a⟩ := b
    obtain ⟨found, matched, h⟩ := ok_of_bind h
    obtain ⟨rest, erased, h⟩ := ok_of_bind h
    have rest_eq := ih erased
    cases ok_of_pure h
    cases found with
    | false => rw [if_neg Bool.false_ne_true, named_cons, named_cons, rest_eq]
    | true =>
      rw [if_pos rfl, rest_eq, named_cons, if_neg]
      intro hy
      obtain ⟨token, rfl⟩ := Expr.name?_eq_some.1 hy
      rw [Expr.name_matchesWith] at matched
      exact other (by simpa using Except.ok.inj matched)

/-- A name that is bound stays bound, whatever is bound after it. -/
theorem isSome_named_of_set {s s' : Scope α} {x : Expr} {a : α} (h : s.set x a = .ok s')
    {name : String} (bound : (s.named name).isSome) : (s'.named name).isSome := by
  obtain ⟨rest, erased, h⟩ := ok_of_bind h
  cases ok_of_pure h
  by_cases hx : x.name? = some name
  · exact isSome_named.2 ⟨(x, a), List.mem_append_right _ (List.mem_singleton_self _), hx⟩
  · rw [← erase_of_name_ne erased hx, isSome_named] at bound
    obtain ⟨b, mem, hb⟩ := bound
    exact isSome_named.2 ⟨b, List.mem_append_left _ mem, hb⟩

/-- The scope with several bindings made one after the other. -/
def setAll (s : Scope α) : Scope α → Except Obstacle (Scope α)
  | [] => return s
  | (x, a) :: rest => do (← s.set x a).setAll rest

variable {s s' bindings : Scope α}

/-- Bindings come from the scope or were made. -/
theorem mem_of_setAll (h : s.setAll bindings = .ok s') {b : Expr × α} (mem : b ∈ s') :
    b ∈ s ∨ b ∈ bindings := by
  induction bindings generalizing s with
  | nil =>
    cases h
    exact .inl mem
  | cons c bindings ih =>
    obtain ⟨y, a⟩ := c
    obtain ⟨s₁, first, later⟩ := ok_of_bind h
    rcases ih later with mem | mem
    · rcases mem_of_set first mem with mem | rfl
      · exact .inl mem
      · exact .inr List.mem_cons_self
    · exact .inr (List.mem_cons_of_mem _ mem)

/-- A name is bound after several bindings if it was before, or is one of those. -/
theorem isSome_named_of_setAll (h : s.setAll bindings = .ok s') {name : String}
    (bound : (s.named name).isSome ∨ ∃ b ∈ bindings, b.1.name? = some name) :
    (s'.named name).isSome := by
  induction bindings generalizing s with
  | nil =>
    cases h
    exact bound.resolve_right (by simp)
  | cons c bindings ih =>
    obtain ⟨y, a⟩ := c
    obtain ⟨s₁, first, later⟩ := ok_of_bind h
    refine ih later ?_
    rcases bound with bound | ⟨b, mem, named⟩
    · exact .inl (isSome_named_of_set first bound)
    · rcases List.mem_cons.1 mem with rfl | mem
      · obtain ⟨rest, -, eq⟩ := ok_of_bind first
        cases ok_of_pure eq
        exact .inl (isSome_named.2 ⟨_, List.mem_append_right _ (List.mem_singleton_self _), named⟩)
      · exact .inr ⟨b, mem, named⟩

end Scope

namespace Environment

/-- The environment with `s` as a new innermost scope. -/
def inner (s : Scope α) (env : Environment α) : Environment α :=
  { env with scopes := s :: env.scopes }

variable (s : Scope α) (env : Environment α) (x : Expr)

/-- To leave an inner scope gives the outer environment. -/
@[simp] theorem leave_inner : (env.inner s).leave = env := rfl

/-- A new scope is an inner one without bindings. -/
theorem push_eq_inner : env.push = env.inner [] := rfl

/-- What an inner scope does not bind is found outside. -/
theorem lookup_inner :
    (env.inner s).lookup x = (do
      match ← s.lookup x with
      | some a => return some a
      | none => env.lookup x) := rfl

/-- A variable is set in the inner scope. -/
theorem set_inner (a : α) : (env.inner s).set x a = (do return env.inner (← s.set x a)) := rfl

/-- What is bound in the innermost scope does not depend on the scopes below it. -/
theorem setAll_inner (bindings : Scope α) :
    (env.inner s).setAll bindings = (do return env.inner (← s.setAll bindings)) := by
  induction bindings generalizing s with
  | nil => rfl
  | cons b bindings ih =>
    obtain ⟨y, a⟩ := b
    rw [setAll, set_inner, Scope.setAll]
    cases s.set y a with
    | error o => rfl
    | ok s' => exact ih s'

end Environment

end TexAlgebra
