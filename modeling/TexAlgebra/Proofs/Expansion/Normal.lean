import TexAlgebra.Proofs.Expansion.Termination
/-!
# Expanded expressions

A full expansion leaves no node to which a rule applies, wherever in the result it is, and the
expansion of what is expanded changes nothing (`Expr.expansion_normal`).
-/

namespace TexAlgebra.Expr

variable {e : Expr} {es : List Expr} {depth : ℕ}

/-- A list stays as it is if all its expressions do. -/
theorem visitAll_eq_self {pass : Pass (Except Obstacle)} (each : ∀ e ∈ es, visit pass e = .ok e) :
    visitAll pass es = .ok es := by
  induction es with
  | nil => rfl
  | cons e es ih =>
    obtain ⟨first, others⟩ := List.forall_mem_cons.1 each
    rw [visitAll, first, ih others]
    rfl

/-- An expression to which no rule applies anywhere is its own expansion. -/
theorem IsNormal.expandWithin (h : e.IsNormal) (room : 0 < depth) :
    expandWithin depth e = .ok e := by
  obtain ⟨depth, rfl⟩ := Nat.exists_eq_add_one_of_ne_zero room.ne'
  induction h with
  | @intro e stuck _ ih =>
    show visit ⟨fun _ => pure none, expandWith.finish (Expr.expandWithin depth)⟩ e = .ok e
    rw [visit_of_none fun _ => rfl, visitAll_eq_self ih]
    show expandWith.finish _ (e.withVisited e.visited) = _
    rw [withVisited_visited, expandWith.finish, show contract? e = .ok none from stuck]
    rfl

/-- **A full expansion is a normal form.** An expression with plain numerals has one expansion,
which is found unless there is too little room for nesting. No rule applies to a node of it, and it
is its own expansion. -/
theorem expansion_normal (plain : e.IsPlain) :
    ∃ r, (∀ depth, e.weight < depth → expandWithin depth e = .ok r) ∧
      (∀ depth, expandWithin depth e = .ok r ∨ expandWithin depth e = .error .tooDeep) ∧
      (∀ path p, r.node? path = some p → contract? p = .ok none) ∧
      ∀ depth, 0 < depth → expandWithin depth r = .ok r := by
  obtain ⟨r, -, normal, enough, depths⟩ := exists_expansion plain
  exact ⟨r, enough, depths, throughout_iff_node?.1 normal, fun _ => normal.expandWithin⟩

/-- The expansion of `(x + y) ^ -2` is a normal form. -/
theorem expansion_normal_power :
    let e : Expr := binary .power (binary .plus (var "x" [] none) (var "y" [] none) none)
      (unary .minus (number "2" none) none) none
    ∃ r, expandWithin (e.weight + 1) e = .ok r ∧
      ∀ path p, r.node? path = some p → contract? p = .ok none := by
  intro e
  have two : Numeral.IsPlain "2" :=
    @Numeral.IsShortSplit.isPlain ['2'] [] ⟨by decide, List.all_eq_true.1 rfl, by decide⟩
  have plain : e.IsPlain := by
    simp [e, IsPlain, HasPlainRoot, two, Operator.isSign]
  obtain ⟨r, enough, -, normal, -⟩ := expansion_normal plain
  exact ⟨r, enough _ (Nat.lt_succ_self _), normal⟩

end TexAlgebra.Expr
