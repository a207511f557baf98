import TexAlgebra.Proofs.Environment.Extended
import TexAlgebra.Proofs.Equality
import TexAlgebra.Proofs.Matching.WellFormed
/-!
# Variables that stay bound

A binding can replace that of another variable, but only of one that matches: then both variables
are well-formed, and whoever looks up the old one finds the new one. So a variable that was bound
in the global scope is found there ever after (`Environment.Keeps.lookup_ne`), whatever is bound
later and whether or not the numbers in its subscripts have values.
-/

namespace TexAlgebra

namespace Expr

variable {x y z : Expr}

/-- Whether a binding of `y` is found for `x`: it equals `x`, or both are well-formed and match. -/
def StandsFor (y x : Expr) : Prop :=
  (y == x) = true ∨ y.IsWellFormed ∧ x.IsWellFormed ∧ y.pattern = x.pattern

/-- A variable stands for itself. -/
theorem standsFor_self (x : Expr) : x.StandsFor x := .inl BEq.rfl

/-- What stands for a variable stands for all that are equal to it. -/
theorem StandsFor.of_beq (h : y.StandsFor x) (same : (x == z) = true) : y.StandsFor z := by
  obtain equal | ⟨wellFormed, wellFormed', pattern⟩ := h
  · exact .inl (BEq.trans equal same)
  · exact .inr ⟨wellFormed, wellFormed'.of_same same, pattern.trans (pattern_eq_of_same same)⟩

/-- What a variable stands for, every variable stands for that it matches. -/
theorem StandsFor.of_matchesWith (h : y.StandsFor x) (matched : y.matchesWith z = .ok true) :
    z.StandsFor x := by
  obtain ⟨hy, hz⟩ := isWellFormed_of_matchesWith matched
  have pattern : y.pattern = z.pattern := (decides_matchesWith hy hz).eq_true_iff.1 matched
  obtain equal | ⟨-, hx, same⟩ := h
  · exact .inr ⟨hz, hy.of_same equal, pattern.symm.trans (pattern_eq_of_same equal)⟩
  · exact .inr ⟨hz, hx, pattern.symm.trans same⟩

end Expr

variable {α : Type}

namespace Scope

/-- Whether a scope binds a variable that stands for `x`. -/
def Keeps (x : Expr) (s : Scope α) : Prop := ∃ b ∈ s, b.1.StandsFor x

variable {s s' : Scope α} {x y : Expr} {a : α}

/-- Only what matches is evicted. -/
theorem mem_erase_or {b : Expr × α} (mem : b ∈ s) (h : s.erase y = .ok s') :
    b ∈ s' ∨ b.1.matchesWith y = .ok true := by
  induction s generalizing s' with
  | nil => cases mem
  | cons c s ih =>
    obtain ⟨found, matched, h⟩ := ok_of_bind h
    obtain ⟨rest, erased, h⟩ := ok_of_bind h
    cases found with
    | true =>
      cases h
      rcases List.mem_cons.1 mem with rfl | mem
      · exact .inr matched
      · exact ih mem erased
    | false =>
      cases h
      rcases List.mem_cons.1 mem with rfl | mem
      · exact .inl List.mem_cons_self
      · exact (ih mem erased).imp_left (List.mem_cons_of_mem _)

/-- A scope keeps what was set in it. -/
theorem keeps_set (h : s.set x a = .ok s') : s'.Keeps x := by
  obtain ⟨rest, -, made⟩ := ok_of_bind h
  cases ok_of_pure made
  exact ⟨(x, a), List.mem_append_right _ (List.mem_singleton_self _), x.standsFor_self⟩

/-- A scope keeps a variable whatever else is set: its binding stays, or makes room for one that
stands for the variable as well. -/
theorem Keeps.set (kept : s.Keeps x) (h : s.set y a = .ok s') : s'.Keeps x := by
  obtain ⟨b, mem, stands⟩ := kept
  obtain ⟨rest, erased, made⟩ := ok_of_bind h
  cases ok_of_pure made
  obtain left | matched := mem_erase_or mem erased
  · exact ⟨b, List.mem_append_left _ left, stands⟩
  · exact ⟨(y, a), List.mem_append_right _ (List.mem_singleton_self _),
      stands.of_matchesWith matched⟩

/-- What matches a binding is found. -/
theorem firstMatch?_ne_none {b : Expr × α} (mem : b ∈ s) (matched : b.1.matchesWith x = .ok true) :
    s.firstMatch? x ≠ .ok none := by
  induction s with
  | nil => cases mem
  | cons c s ih =>
    intro h
    obtain ⟨found, tested, h⟩ := ok_of_bind h
    cases found with
    | true => cases h
    | false =>
      rcases List.mem_cons.1 mem with rfl | mem
      · cases tested.symm.trans matched
      · exact ih mem h

/-- What a scope keeps is found in it. -/
theorem Keeps.lookup_ne (kept : s.Keeps x) : s.lookup x ≠ .ok none := by
  obtain ⟨b, mem, stands⟩ := kept
  rw [lookup]
  cases found : s.find? (·.1 == x) with
  | some c =>
    intro none
    cases none
  | none =>
    obtain equal | ⟨wellFormed, wellFormed', pattern⟩ := stands
    · exact absurd equal (List.find?_eq_none.1 found b mem)
    · exact firstMatch?_ne_none mem
        ((Expr.decides_matchesWith wellFormed wellFormed').eq_true_iff.2 pattern)

end Scope

namespace Environment

variable {env env' : Environment α} {x y : Expr}

/-- Whether the global scope is the only one and binds a variable that stands for `x`. -/
structure Keeps (x : Expr) (env : Environment α) : Prop where
  depth : env.depth = 0
  globals : env.globals.Keeps x

theorem Keeps.of_beq (kept : env.Keeps x) (same : (x == y) = true) : env.Keeps y := by
  obtain ⟨b, mem, stands⟩ := kept.globals
  exact ⟨kept.depth, b, mem, stands.of_beq same⟩

/-- Where no scope is open a variable is set globally. -/
theorem set_of_depth {a : α} (rest : env.depth = 0) (h : env.set x a = .ok env') :
    env'.depth = 0 ∧ env.globals.set x a = .ok env'.globals := by
  obtain ⟨globals, scopes⟩ := env
  cases List.eq_nil_of_length_eq_zero rest
  obtain ⟨s, changed, made⟩ := ok_of_bind h
  cases ok_of_pure made
  exact ⟨rfl, changed⟩

/-- What is bound stays bound, and what is among the bindings is bound after them. -/
theorem keeps_setAll {bindings : Scope α} (rest : env.depth = 0)
    (bound : env.Keeps x ∨ x ∈ bindings.map Prod.fst) (h : env.setAll bindings = .ok env') :
    env'.Keeps x := by
  induction bindings generalizing env with
  | nil =>
    cases h
    exact bound.resolve_right List.not_mem_nil
  | cons b bindings ih =>
    obtain ⟨y, a⟩ := b
    obtain ⟨env₁, first, later⟩ := ok_of_bind h
    obtain ⟨rest₁, changed⟩ := set_of_depth rest first
    refine ih rest₁ ?_ later
    obtain kept | mem := bound
    · exact .inl ⟨rest₁, kept.globals.set changed⟩
    · rcases List.mem_cons.1 mem with rfl | mem
      · exact .inl ⟨rest₁, Scope.keeps_set changed⟩
      · exact .inr mem

/-- An extension keeps what was kept. -/
theorem Keeps.extends {xs : List Expr} (kept : env.Keeps x) (h : env.Extends xs env') :
    env'.Keeps x := by
  obtain ⟨bindings, -, made⟩ := h
  exact keeps_setAll kept.depth (.inl kept) made

theorem Keeps.lookup_ne (kept : env.Keeps x) : env.lookup x ≠ .ok none := by
  obtain ⟨globals, scopes⟩ := env
  cases List.eq_nil_of_length_eq_zero kept.depth
  intro h
  obtain ⟨found, made, h⟩ := ok_of_bind h
  cases found with
  | some a => cases h
  | none => exact kept.globals.lookup_ne made

end Environment

end TexAlgebra
