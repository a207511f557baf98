import TexAlgebra.Proofs.Environment.Mapped
/-!
# Extended environments

All that a visit of an expression does to an environment is to bind variables one after the other.
`Environment.Extends xs env env'` says which ones: some of `xs`, in their order. Bindings go to the
innermost scope, so the scopes outside of it are left as they are, and bindings made in a new scope
are gone once it is left.
-/

namespace TexAlgebra

variable {α : Type}

namespace Environment

/-! ## Scopes outside of the innermost one -/

/-- All scopes except the innermost one. -/
def outer (env : Environment α) : List (Scope α) := (env.scopes ++ [env.globals]).drop 1

/-- Whether two environments have the same scopes, their innermost ones aside. -/
structure SameOutside (env env' : Environment α) : Prop where
  depth : env'.depth = env.depth
  outer : env'.outer = env.outer

variable {env env' env'' : Environment α}

/-- An environment is the same as itself outside of the innermost scope. -/
theorem SameOutside.refl (env : Environment α) : env.SameOutside env := ⟨rfl, rfl⟩

/-- What two steps leave alone both together do. -/
theorem SameOutside.trans (h : env.SameOutside env') (h' : env'.SameOutside env'') :
    env.SameOutside env'' :=
  ⟨h'.depth.trans h.depth, h'.outer.trans h.outer⟩

/-- A variable is set in the innermost scope. -/
theorem sameOutside_set {x : Expr} {a : α} (h : env.set x a = .ok env') :
    env.SameOutside env' := by
  obtain ⟨globals, scopes⟩ := env
  cases scopes with
  | nil =>
    obtain ⟨s, -, result⟩ := ok_of_bind h
    cases ok_of_pure result
    exact ⟨rfl, rfl⟩
  | cons s outer =>
    obtain ⟨s', -, result⟩ := ok_of_bind h
    cases ok_of_pure result
    exact ⟨rfl, rfl⟩

/-- Several variables are set in the innermost scope. -/
theorem sameOutside_setAll {bindings : Scope α} (h : env.setAll bindings = .ok env') :
    env.SameOutside env' := by
  induction bindings generalizing env with
  | nil =>
    cases h
    exact .refl _
  | cons b bindings ih =>
    obtain ⟨x, a⟩ := b
    obtain ⟨env₁, first, later⟩ := ok_of_bind h
    exact (sameOutside_set first).trans (ih later)

/-! ## Scopes that are open -/

/-- Whether an environment comes about from another one when scopes are opened. -/
def Opened (env env' : Environment α) : Prop :=
  ∃ scopes : List (Scope α), env' = ⟨env.globals, scopes ++ env.scopes⟩

/-- An environment is opened from itself by no scope. -/
theorem Opened.refl (env : Environment α) : env.Opened env := ⟨[], rfl⟩

/-- When all calls are given up that are under way, nothing is left of the scopes that they opened.
-/
theorem Opened.unwind (h : env.Opened env') (rest : env.depth = 0) : env'.unwind = env := by
  obtain ⟨globals, scopes⟩ := env
  cases List.eq_nil_of_length_eq_zero rest
  obtain ⟨opened, rfl⟩ := h
  rfl

/-! ## Extensions -/

/-- Bindings can be made in two steps. -/
theorem setAll_append (env : Environment α) (bindings later : Scope α) :
    env.setAll (bindings ++ later) = env.setAll bindings >>= (·.setAll later) := by
  induction bindings generalizing env with
  | nil => rfl
  | cons b bindings ih =>
    obtain ⟨x, a⟩ := b
    rw [List.cons_append, setAll, setAll]
    cases env.set x a with
    | error o => rfl
    | ok env' => exact ih env'

/-- Whether an environment comes about from another one when some of the variables `xs` are bound in
it, in their order. -/
def Extends (xs : List Expr) (env env' : Environment α) : Prop :=
  ∃ bindings : Scope α,
    (bindings.map Prod.fst).Sublist xs ∧ env.setAll bindings = .ok env'

variable {xs ys : List Expr}

/-- An environment extends itself by some of any variables, namely by none. -/
theorem Extends.refl (xs : List Expr) (env : Environment α) : env.Extends xs env :=
  ⟨[], List.nil_sublist xs, rfl⟩

/-- Two extensions are one, by the variables of both. -/
theorem Extends.append (h : env.Extends xs env') (h' : env'.Extends ys env'') :
    env.Extends (xs ++ ys) env'' := by
  obtain ⟨bindings, sub, made⟩ := h
  obtain ⟨later, sub', made'⟩ := h'
  refine ⟨bindings ++ later, ?_, ?_⟩
  · rw [List.map_append]
    exact sub.append sub'
  · rw [setAll_append, made]
    exact made'

/-- An extension by some of few variables is one by some of more. -/
theorem Extends.mono (h : env.Extends xs env') (sub : xs.Sublist ys) : env.Extends ys env' := by
  obtain ⟨bindings, sub', made⟩ := h
  exact ⟨bindings, sub'.trans sub, made⟩

/-- A variable that is set extends an environment. -/
theorem extends_set {x : Expr} {a : α} (h : env.set x a = .ok env') : env.Extends [x] env' := by
  refine ⟨[(x, a)], List.Sublist.refl _, ?_⟩
  rw [setAll, h]
  rfl

/-- Where nothing is bound, nothing changes. -/
theorem Extends.eq_of_nil (h : env.Extends [] env') : env' = env := by
  obtain ⟨bindings, sub, made⟩ := h
  cases List.map_eq_nil_iff.1 (List.sublist_nil.1 sub)
  cases made
  rfl

/-- An extension is in the innermost scope. -/
theorem Extends.sameOutside (h : env.Extends xs env') : env.SameOutside env' := by
  obtain ⟨bindings, -, made⟩ := h
  exact sameOutside_setAll made

/-- Whatever is bound in a new scope, it stays the innermost one. -/
theorem Extends.innermost {bindings : Scope α} (entered : env.push.setAll bindings = .ok env')
    (h : env'.Extends xs env'') : ∃ s, env'' = ⟨env.globals, s :: env.scopes⟩ := by
  obtain ⟨later, -, made⟩ := h
  have both : env.push.setAll (bindings ++ later) = .ok env'' := by
    rw [setAll_append, entered]
    exact made
  have depth : env''.depth = env.depth + 1 := (sameOutside_setAll both).depth
  have left := leave_of_setAll_push both
  obtain ⟨globals, scopes⟩ := env''
  cases scopes with
  | nil => cases depth
  | cons s outer =>
    cases left
    exact ⟨s, rfl⟩

/-- Whatever is bound in a new scope is gone when it is left. -/
theorem Extends.leave {bindings : Scope α} (entered : env.push.setAll bindings = .ok env')
    (h : env'.Extends xs env'') : env''.leave = env := by
  obtain ⟨s, rfl⟩ := h.innermost entered
  rfl

end Environment

end TexAlgebra
