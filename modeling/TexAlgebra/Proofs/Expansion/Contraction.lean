import Mathlib.Logic.Relation
import TexAlgebra.Proofs.Expansion.Positions
/-!
# Contractions

A contraction applies one rule of expansion anywhere in an expression, with no regard to an order.
Both ways of expansion are strategies for contractions: a single step is one contraction, if there
is one (`Expr.step_spec`), and a full expansion is a sequence of contractions that ends where none
is left (`Expr.expandWithin_spec`). So what is shown of contractions holds for both.
-/

namespace TexAlgebra.Expr

/-- Whether an expression becomes another one when one rule is applied at its root or at a visited
part of it, however deep inside. -/
inductive Contracts : Expr → Expr → Prop
  | root {e r : Expr} (contracts : contract? e = .ok (some r)) : Contracts e r
  | part {e p q : Expr} {before after : List Expr} (found : e.visited = before ++ p :: after)
      (inner : Contracts p q) : Contracts e (e.withVisited (before ++ q :: after))

/-- Whether an expression becomes another one by contractions. -/
def Reaches : Expr → Expr → Prop := Relation.ReflTransGen Contracts

/-- Whether no rule applies at the root of an expression. -/
def IsStuck (e : Expr) : Prop := contract? e = .ok none

/-- Whether no rule applies anywhere in an expression. -/
def IsNormal : Expr → Prop := Throughout IsStuck

variable {e r p q : Expr} {before after es rs : List Expr}

theorem mem_of_visited_eq (found : e.visited = before ++ p :: after) : p ∈ e.visited := by
  rw [found]
  exact List.mem_append_right _ List.mem_cons_self

theorem eq_of_singleton (found : [e] = before ++ p :: after) :
    before = [] ∧ p = e ∧ after = [] := by
  simpa [List.singleton_eq_append_iff] using found

theorem eq_of_pair (found : [e, r] = before ++ p :: after) :
    before = [] ∧ p = e ∧ after = [r] ∨ before = [e] ∧ p = r ∧ after = [] := by
  rcases before with - | ⟨x, before⟩
  · cases found
    exact Or.inl ⟨rfl, rfl, rfl⟩
  · obtain ⟨rfl, last⟩ := List.cons.inj found
    obtain ⟨rfl, rfl, rfl⟩ := eq_of_singleton last
    exact Or.inr ⟨rfl, rfl, rfl⟩

/-! ## Parts -/

/-- A part is replaced by one part. -/
theorem length_of_visited_eq (found : e.visited = before ++ p :: after) :
    (before ++ q :: after).length = e.visited.length := by
  rw [found, List.length_append, List.length_append, List.length_cons, List.length_cons]

/-- With one part replaced the others stay. -/
theorem visited_of_part (found : e.visited = before ++ p :: after) :
    (e.withVisited (before ++ q :: after)).visited = before ++ q :: after :=
  visited_withVisited (length_of_visited_eq found)

/-- Contractions in one part are contractions of the expression. -/
theorem Reaches.part (found : e.visited = before ++ p :: after) (h : Reaches p q) :
    Reaches e (e.withVisited (before ++ q :: after)) := by
  induction h with
  | refl =>
    rw [← found, withVisited_visited]
    exact .refl
  | @tail q r _ last ih =>
    have step := Contracts.part (visited_of_part found) last
    rw [withVisited_withVisited (length_of_visited_eq found) (length_of_visited_eq found)] at step
    exact ih.tail step

/-- Contractions in several parts can be made one after the other. -/
theorem Reaches.parts (h : List.Forall₂ Reaches es rs) (found : e.visited = before ++ es) :
    Reaches e (e.withVisited (before ++ rs)) := by
  induction h generalizing e before with
  | nil =>
    rw [← found, withVisited_visited]
    exact .refl
  | @cons p q es rs first later ih =>
    have length : (before ++ q :: rs).length = e.visited.length := by
      rw [found, List.length_append, List.length_append, List.length_cons, List.length_cons,
        later.length_eq]
    have front := Reaches.part found first
    have visited := visited_of_part (q := q) found
    rw [List.append_cons] at visited
    have back := ih visited
    rw [← List.append_cons, ← List.append_cons,
      withVisited_withVisited (length_of_visited_eq found) length] at back
    exact front.trans back

/-- What its parts reach an expression reaches with them. -/
theorem Reaches.withVisited (h : List.Forall₂ Reaches e.visited rs) :
    Reaches e (e.withVisited rs) :=
  Reaches.parts h (List.nil_append _).symm

/-- What holds throughout an expression holds throughout what it contracts to, given that the rules
keep it and that it does not get lost at a node when a part of it contracts. -/
theorem Contracts.throughout {P : Expr → Prop} (h : Contracts e r)
    (rule : ∀ {e r}, contract? e = .ok (some r) → Throughout P e → Throughout P r)
    (node : ∀ {e p q before after}, e.visited = before ++ p :: after → Throughout P e →
      Contracts p q → P (e.withVisited (before ++ q :: after)))
    (throughout : Throughout P e) : Throughout P r := by
  induction h with
  | root contracts => exact rule contracts throughout
  | @part e p q before after found inner ih =>
    refine .intro (node found throughout inner) ?_
    have parts := throughout.parts
    rw [found, List.forall_mem_append, List.forall_mem_cons] at parts
    obtain ⟨first, contracted, last⟩ := parts
    rw [visited_of_part found, List.forall_mem_append, List.forall_mem_cons]
    exact ⟨first, ih contracted, last⟩

/-! ## Single steps -/

/-- Once a contraction was made the rest of a list stays. -/
theorem visitAll_stepping_true (es : List Expr) : visitAll stepping es true = .ok (es, true) := by
  induction es with
  | nil => rfl
  | cons e es ih =>
    rw [visitAll]
    show (visit stepping e true >>= fun a => _) = _
    rw [visit_stepping_true]
    show (visitAll stepping es true >>= fun a => _) = _
    rw [ih]
    rfl

/-- Whether a path leads to the first node of an expression to which a rule applies, and the rule
makes `q` of it. The nodes before it are those to the left of it and those around it. -/
structure IsFirst (e : Expr) (path : Path) (q : Expr) : Prop where
  here : ∃ p, e.node? path = some p ∧ contract? p = .ok (some q)
  before : ∀ path' p, path' < path → e.node? path' = some p → p.IsStuck

/-- The root comes first if it contracts. -/
theorem isFirst_nil (contracts : contract? e = .ok (some q)) : e.IsFirst [] q where
  here := ⟨e, rfl, contracts⟩
  before _ _ less := absurd less (List.not_lt_nil _)

/-- The first node of an expression to which no rule applies at the root is the first one of the
first part that has one. -/
theorem IsFirst.cons {path : Path} (h : p.IsFirst path q) (stuck : e.IsStuck)
    (found : e.visited = before ++ p :: after) (normal : ∀ p ∈ before, p.IsNormal) :
    e.IsFirst (before.length :: path) q where
  here := by
    obtain ⟨p', here, contracts⟩ := h.here
    exact ⟨p', node?_cons_eq_some.2 ⟨p, by simp [found], here⟩, contracts⟩
  before path' p' less here := by
    cases path' with
    | nil =>
      cases here
      exact stuck
    | cons j path' =>
      obtain ⟨part, at_j, here⟩ := node?_cons_eq_some.1 here
      rw [found] at at_j
      rcases List.cons_lt_cons_iff.1 less with left | ⟨rfl, inside⟩
      · rw [List.getElem?_append_left left] at at_j
        exact throughout_iff_node?.1 (normal part (List.mem_of_getElem? at_j)) path' p' here
      · rw [List.getElem?_append_right (Nat.le_refl _), Nat.sub_self] at at_j
        cases at_j
        exact h.before path' p' inside here

/-- A node to which a rule applies is contracted wherever it is. -/
theorem contracts_replaced {path : Path} (found : e.node? path = some p)
    (contracts : contract? p = .ok (some q)) : Contracts e (e.replaced path q) := by
  induction path generalizing e with
  | nil =>
    cases found
    exact .root contracts
  | cons i path ih =>
    obtain ⟨part, here, found⟩ := node?_cons_eq_some.1 found
    obtain ⟨less, rfl⟩ := List.getElem?_eq_some_iff.1 here
    have split : e.visited = e.visited.take i ++ e.visited[i] :: e.visited.drop (i + 1) := by simp
    have length : (e.visited.take i).length = i := List.length_take_of_le (Nat.le_of_lt less)
    have inside := replaced_of_visited_eq split path q
    rw [length] at inside
    rw [inside]
    exact .part split (ih found)

/-- A step on a list contracts in the first expression that is not normal, or all of them are
normal. -/
theorem visitAll_stepping_spec {R : Expr → Expr → Prop}
    (each : ∀ p ∈ es, ∀ q b, visit stepping p false = .ok (q, b) →
      if b then R p q else q = p ∧ p.IsNormal) {b : Bool}
    (h : visitAll stepping es false = .ok (rs, b)) :
    if b then ∃ before p q after, es = before ++ p :: after ∧ rs = before ++ q :: after ∧
      (∀ p ∈ before, p.IsNormal) ∧ R p q
    else rs = es ∧ ∀ p ∈ es, p.IsNormal := by
  induction es generalizing rs b with
  | nil =>
    cases h
    exact ⟨rfl, List.forall_mem_nil _⟩
  | cons e es ih =>
    obtain ⟨first, others⟩ := List.forall_mem_cons.1 each
    rw [visitAll] at h
    obtain ⟨⟨r, stepped⟩, visited, h⟩ := ok_of_bind h
    obtain ⟨⟨rs', stepped'⟩, visited', h⟩ := ok_of_bind h
    cases h
    have step := first r stepped visited
    cases stepped with
    | true =>
      -- the rest is left as it is
      rw [visitAll_stepping_true] at visited'
      cases visited'
      exact ⟨[], e, r, es, rfl, rfl, List.forall_mem_nil _, step⟩
    | false =>
      obtain ⟨rfl, normal⟩ := step
      have rest := ih others visited'
      cases b with
      | true =>
        obtain ⟨before, p, q, after, rfl, rfl, normals, related⟩ := rest
        exact ⟨r :: before, p, q, after, rfl, rfl, List.forall_mem_cons.2 ⟨normal, normals⟩,
          related⟩
      | false =>
        obtain ⟨rfl, normals⟩ := rest
        exact ⟨rfl, List.forall_mem_cons.2 ⟨normal, normals⟩⟩

/-- A step is made at the first node to which a rule applies, if there is one. -/
theorem visit_stepping_first (e r : Expr) (stepped : Bool)
    (h : visit stepping e false = .ok (r, stepped)) :
    if stepped then ∃ path q, e.IsFirst path q ∧ r = e.replaced path q
    else r = e ∧ e.IsNormal := by
  induction e using visited_induction generalizing r stepped with
  | h e ih =>
    cases contracts : contract? e with
    | error o =>
      rw [visit_stepping_of_error contracts] at h
      cases h
    | ok r? =>
      cases r? with
      | some r' =>
        rw [visit_stepping_of_some contracts] at h
        cases h
        exact ⟨[], r, isFirst_nil contracts, rfl⟩
      | none =>
        rw [visit_stepping_of_none contracts] at h
        obtain ⟨⟨rs, b⟩, visited, h⟩ := ok_of_bind h
        cases h
        have parts := visitAll_stepping_spec
          (R := fun p q => ∃ path s, p.IsFirst path s ∧ q = p.replaced path s)
          (fun p mem q b => ih p mem q b) visited
        cases stepped with
        | true =>
          obtain ⟨before, p, _, after, found, rfl, normals, path, q, first, rfl⟩ := parts
          exact ⟨before.length :: path, q, first.cons contracts found normals,
            (replaced_of_visited_eq found path q).symm⟩
        | false =>
          obtain ⟨rfl, normals⟩ := parts
          exact ⟨withVisited_visited e, .intro contracts normals⟩

/-- What a step does: it contracts once, or there is nothing to contract. -/
def Steps (e r : Expr) (stepped : Bool) : Prop :=
  if stepped then Contracts e r else r = e ∧ e.IsNormal

/-- A step contracts at the first position where a rule applies, or the expression is normal. -/
theorem visit_stepping_spec (e r : Expr) (stepped : Bool)
    (h : visit stepping e false = .ok (r, stepped)) : Steps e r stepped := by
  have spec := visit_stepping_first e r stepped h
  cases stepped with
  | false => exact spec
  | true =>
    obtain ⟨path, q, ⟨⟨p, found, contracts⟩, -⟩, rfl⟩ := spec
    exact contracts_replaced found contracts

/-- A step contracts an expression once, and if it does not, then there is nothing to contract. -/
theorem step_spec {stepped : Bool} (h : step e = .ok (r, stepped)) : Steps e r stepped :=
  visit_stepping_spec e r stepped h

/-! ## Full expansion -/

/-- A pass relates the expressions of a list one by one. -/
theorem forall₂_of_visitAll {pass : Pass (Except Obstacle)} {R : Expr → Expr → Prop}
    (each : ∀ e ∈ es, ∀ r, visit pass e = .ok r → R e r) (h : visitAll pass es = .ok rs) :
    List.Forall₂ R es rs := by
  induction es generalizing rs with
  | nil =>
    cases h
    exact .nil
  | cons e es ih =>
    obtain ⟨first, others⟩ := List.forall_mem_cons.1 each
    rw [visitAll] at h
    obtain ⟨r, visited, h⟩ := ok_of_bind h
    obtain ⟨rs', visited', h⟩ := ok_of_bind h
    cases h
    exact .cons (first r visited) (ih others visited')

theorem forall_mem_of_forall₂ {P : Expr → Prop} (h : List.Forall₂ (fun _ r => P r) es rs) :
    ∀ r ∈ rs, P r := by
  induction h with
  | nil => exact List.forall_mem_nil _
  | cons first _ ih => exact List.forall_mem_cons.2 ⟨first, ih⟩

/-- The expansion of an expression is reached by contractions and cannot be contracted. -/
theorem expandWithin_spec {depth : Nat} (h : expandWithin depth e = .ok r) :
    Reaches e r ∧ r.IsNormal := by
  -- on the depth, and for a given depth on the expression
  induction depth generalizing e r with
  | zero => cases h
  | succ depth again =>
    induction e using visited_induction generalizing r with
    | h e ih =>
      change visit ⟨fun _ => pure none, expandWith.finish (expandWithin depth)⟩ e = .ok r at h
      rw [visit_of_none fun _ => rfl] at h
      obtain ⟨rs, visited, h⟩ := ok_of_bind h
      have reached : List.Forall₂ Reaches e.visited rs :=
        forall₂_of_visitAll (fun p mem q h => (ih p mem h).1) visited
      have normals : ∀ q ∈ rs, q.IsNormal :=
        forall_mem_of_forall₂ (forall₂_of_visitAll (fun p mem q h => (ih p mem h).2) visited)
      have front := Reaches.withVisited reached
      obtain ⟨r?, contracts, h⟩ := ok_of_bind h
      cases r? with
      | none =>
        cases h
        refine ⟨front, .intro contracts ?_⟩
        rw [visited_withVisited reached.length_eq.symm]
        exact normals
      | some r' =>
        obtain ⟨back, normal⟩ := again h
        exact ⟨(front.tail (.root contracts)).trans back, normal⟩

end TexAlgebra.Expr
