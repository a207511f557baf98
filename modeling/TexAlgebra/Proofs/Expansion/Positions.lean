import TexAlgebra.Proofs.Expansion.Parts
/-!
# Positions in an expression

A node of an expression is found by a path: the numbers of the visited parts to go through on the
way from the root. The dictionary order of paths is the order in which a pass reaches the nodes, a
node before its parts and these from left to right. `Expr.replaced` puts an expression in place of
the node at a path, and leaves all nodes to the left and to the right of it as they are
(`Expr.node?_replaced_of_apart`).
-/

namespace TexAlgebra.Expr

/-- The numbers of the visited parts on the way from the root of an expression to a node. -/
abbrev Path := List ℕ

/-- The node at the end of a path, if there is one. -/
def node? : Expr → Path → Option Expr
  | e, [] => some e
  | e, i :: path => e.visited[i]?.bind (·.node? path)

/-- The expression with `r` in place of the node at the end of a path. -/
def replaced : Expr → Path → Expr → Expr
  | _, [], r => r
  | e, i :: path, r => e.withVisited (e.visited.modify i (·.replaced path r))

variable {e p r : Expr} {i : ℕ} {path path' : Path} {before after : List Expr}

/-- A node below a part is a node of the part. -/
theorem node?_cons_eq_some :
    e.node? (i :: path) = some p ↔ ∃ part, e.visited[i]? = some part ∧ part.node? path = some p :=
  Option.bind_eq_some_iff

/-! ## Nodes -/

/-- What holds throughout an expression holds of its nodes, and the other way round. -/
theorem throughout_iff_node? {P : Expr → Prop} :
    Throughout P e ↔ ∀ path p, e.node? path = some p → P p := by
  constructor
  · intro h path p found
    induction path generalizing e with
    | nil =>
      cases found
      exact h.root
    | cons i path ih =>
      obtain ⟨part, here, found⟩ := node?_cons_eq_some.1 found
      exact ih (h.parts part (List.mem_of_getElem? here)) found
  · intro all
    induction e using visited_induction with
    | h e ih =>
      refine .intro (all [] e rfl) fun part mem => ih part mem fun path p found => ?_
      obtain ⟨i, here⟩ := List.mem_iff_getElem?.1 mem
      exact all (i :: path) p (node?_cons_eq_some.2 ⟨part, here, found⟩)

/-! ## Replacement -/

/-- What stands behind some parts is changed in its place. -/
theorem modify_length_append (f : Expr → Expr) (before after : List Expr) (p : Expr) :
    (before ++ p :: after).modify before.length f = before ++ f p :: after := by
  induction before with
  | nil => rfl
  | cons b before ih => simpa using ih

/-- A replacement in one of the visited parts. -/
theorem replaced_of_visited_eq (found : e.visited = before ++ p :: after) (path : Path) (r : Expr) :
    e.replaced (before.length :: path) r =
      e.withVisited (before ++ p.replaced path r :: after) := by
  rw [replaced, found, modify_length_append]

/-- To replace a node changes the part in which it is. -/
theorem visited_replaced (i : ℕ) (path : Path) (r : Expr) :
    (e.replaced (i :: path) r).visited = e.visited.modify i (·.replaced path r) :=
  visited_withVisited (List.length_modify ..)

/-- What is put in place of a node is found there. -/
theorem node?_replaced (found : e.node? path = some p) :
    (e.replaced path r).node? path = some r := by
  induction path generalizing e with
  | nil => rfl
  | cons i path ih =>
    obtain ⟨part, here, found⟩ := node?_cons_eq_some.1 found
    refine node?_cons_eq_some.2 ⟨part.replaced path r, ?_, ih found⟩
    rw [visited_replaced, List.getElem?_modify_eq, here]
    rfl

/-- A node that is neither inside of a replaced one nor around it stays as it is. -/
theorem node?_replaced_of_apart (inside : ¬path <+: path') (around : ¬path' <+: path) :
    (e.replaced path r).node? path' = e.node? path' := by
  induction path generalizing e path' with
  | nil => exact absurd List.nil_prefix inside
  | cons i path ih =>
    cases path' with
    | nil => exact absurd List.nil_prefix around
    | cons j path' =>
      rw [node?, node?, visited_replaced, List.getElem?_modify]
      by_cases same : i = j
      · subst same
        rw [List.prefix_cons_inj] at inside around
        cases e.visited[i]? with
        | none => rfl
        | some part =>
          simpa using ih inside around
      · simp [same]

end TexAlgebra.Expr
