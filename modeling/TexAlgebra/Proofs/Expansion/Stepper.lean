import TexAlgebra.Expr.Stepper
import TexAlgebra.Proofs.Expansion.Termination
/-!
# What a stepper does

A stepper makes one step, at the first node to which a rule applies, or none if there is no such
node, whatever it was used for before (`Expr.Stepper.visit_after`). It is outside of all nodes again
after every use, also after one that failed, so the next use starts a new traversal. Inside of a
node it does what the pass `stepping` does.
-/

namespace TexAlgebra.Expr.Stepper

variable {α β : Type} {e : Expr} {es : List Expr}

/-! ## Results -/

/-- Whether a stepper ends at some depth with what a pass with a flag yields. Of a failure only the
cause counts. -/
def Agrees (depth : ℕ) (ended : Except Obstacle α × Stepper)
    (result : Except Obstacle (α × Bool)) : Prop :=
  match result with
  | .ok (a, stepped) => ended = (.ok a, ⟨stepped, depth⟩)
  | .error o => ∃ stepped, ended = (.error o, ⟨stepped, depth⟩)

/-- A visit leaves the depth as it was. -/
theorem Agrees.depth_eq {depth : ℕ} {ended : Except Obstacle α × Stepper}
    {result : Except Obstacle (α × Bool)} (h : Agrees depth ended result) :
    ended.2.depth = depth := by
  rcases result with o | ⟨a, stepped⟩
  · obtain ⟨stepped, rfl⟩ := h
    rfl
  · cases h
    rfl

/-- Whether a stepper inside of a node does what a pass with a flag does, and stays where it is. -/
def Follows (x : Stepping α) (y : StateT Bool (Except Obstacle) α) : Prop :=
  ∀ stepped depth, 0 < depth → Agrees depth (x ⟨stepped, depth⟩) (y stepped)

/-- Without a step nothing is changed. -/
theorem follows_pure (a : α) : Follows (pure a) (pure a) := fun _ _ _ => rfl

/-- A sequence follows if both of its steps do. -/
theorem Follows.bind {x : Stepping α} {y : StateT Bool (Except Obstacle) α} {f : α → Stepping β}
    {g : α → StateT Bool (Except Obstacle) β} (h : Follows x y) (next : ∀ a, Follows (f a) (g a)) :
    Follows (x >>= f) (y >>= g) := by
  intro stepped depth inside
  have first := h stepped depth inside
  show Agrees depth _ (y stepped >>= fun r => g r.1 r.2)
  cases result : y stepped with
  | error o =>
    rw [result] at first
    obtain ⟨stepped', failed⟩ := first
    exact ⟨stepped', bind_of_error failed⟩
  | ok r =>
    rw [result] at first
    rw [bind_of_ok first]
    exact next r.1 r.2 depth inside

/-- The parts are visited one after the other. -/
theorem follows_visitAll (each : ∀ p ∈ es, Follows (visit p) (Expr.visit stepping p)) :
    Follows (visitAll es) (Expr.visitAll stepping es) := by
  induction es with
  | nil =>
    rw [visitAll, Expr.visitAll]
    exact follows_pure []
  | cons e es ih =>
    obtain ⟨first, others⟩ := List.forall_mem_cons.1 each
    rw [visitAll, Expr.visitAll]
    exact first.bind fun r => (ih others).bind fun rs => follows_pure (r :: rs)

/-! ## Visits -/

/-- One list is visited after the other. -/
theorem visitAll_append (es fs : List Expr) :
    visitAll (es ++ fs) = do return (← visitAll es) ++ (← visitAll fs) := by
  induction es with
  | nil => simp [visitAll]
  | cons e es ih => simp [visitAll, ih]

/-- What a stepper does inside of a node. -/
def inside (e : Expr) : Stepping Expr := do
  match ← contracted? e with
  | some r => return r
  | none => return e.withVisited (← visitAll e.visited)

/-- A visit goes inside unless a contraction was made already. -/
theorem visit_eq (e : Expr) :
    visit e = skips >>= fun skipped => if skipped then return e else within (inside e) := by
  rw [visit.eq_def]
  refine bind_congr fun skipped => ?_
  cases skipped with
  | true => rfl
  | false =>
    refine congrArg within (bind_congr fun r? => ?_)
    cases r? with
    | some r => rfl
    | none => cases e <;> simp [visitAll, visitAll_append, visited, withVisited]

/-- Once the step is made, a node inside of another one is left as it is. -/
theorem visit_of_stepped {depth : ℕ} (inner : 0 < depth) (e : Expr) :
    visit e ⟨true, depth⟩ = (.ok e, ⟨true, depth⟩) := by
  have skipped : skips ⟨true, depth⟩ = (.ok true, ⟨true, depth⟩) := by
    show (if depth = 0 then _ else _ : Stepping Bool) _ = _
    rw [if_neg inner.ne']
    rfl
  rw [visit_eq, bind_of_ok skipped]
  rfl

/-- A node is entered if a traversal starts with it or no step was made yet. -/
theorem visit_of_entered {stepped : Bool} {depth : ℕ} (enters : depth = 0 ∨ stepped = false)
    (e : Expr) : visit e ⟨stepped, depth⟩ = within (inside e) ⟨false, depth⟩ := by
  have entered : skips ⟨stepped, depth⟩ = (.ok false, ⟨false, depth⟩) := by
    show (if depth = 0 then _ else _ : Stepping Bool) _ = _
    split
    · rfl
    · next inner =>
      obtain rfl := enters.resolve_left inner
      rfl
  rw [visit_eq, bind_of_ok entered]
  rfl

/-- A node is left again however its visit ends. -/
theorem Agrees.within {x : Stepping α} {depth : ℕ} {result : Except Obstacle (α × Bool)}
    (h : Agrees (depth + 1) (x ⟨false, depth + 1⟩) result) :
    Agrees depth (within x ⟨false, depth⟩) result := by
  have ended : Stepper.within x ⟨false, depth⟩ =
      ((x ⟨false, depth + 1⟩).1, ⟨(x ⟨false, depth + 1⟩).2.stepped,
        (x ⟨false, depth + 1⟩).2.depth - 1⟩) := rfl
  rcases result with o | ⟨a, stepped⟩
  · obtain ⟨stepped, failed⟩ := h
    exact ⟨stepped, by rw [ended, failed]; rfl⟩
  · have made : x ⟨false, depth + 1⟩ = (.ok a, ⟨stepped, depth + 1⟩) := h
    show _ = _
    rw [ended, made]
    rfl

/-- Inside of an expression the visit contracts the root or goes on with the parts. -/
theorem agrees_inside (parts : ∀ p ∈ e.visited, Follows (visit p) (Expr.visit stepping p))
    {depth : ℕ} (inner : 0 < depth) :
    Agrees depth (inside e ⟨false, depth⟩) (Expr.visit stepping e false) := by
  have asked : ∀ {r?}, contract? e = .ok r? →
      contracted? e ⟨false, depth⟩ = (.ok r?, ⟨r?.isSome, depth⟩) := by
    intro r? contracts
    rw [contracted?, contracts]
    cases r? <;> rfl
  cases contracts : contract? e with
  | error o =>
    have failed : contracted? e ⟨false, depth⟩ = (.error o, ⟨false, depth⟩) := by
      rw [contracted?, contracts]
      rfl
    rw [visit_stepping_of_error contracts, inside]
    exact ⟨false, bind_of_error failed⟩
  | ok r? =>
    rw [inside, bind_of_ok (asked contracts)]
    cases r? with
    | some r =>
      rw [visit_stepping_of_some contracts]
      rfl
    | none =>
      rw [visit_stepping_of_none contracts, ← bind_pure_comp]
      exact (follows_visitAll parts).bind (fun rs => follows_pure (e.withVisited rs)) false depth
        inner

/-- **A stepper does what the pass does.** It starts a new traversal outside of all nodes, and
follows the pass inside of a node. -/
theorem follows_visit (e : Expr) : Follows (visit e) (Expr.visit stepping e) := by
  induction e using visited_induction with
  | h e ih =>
    intro stepped depth inner
    cases stepped with
    | true =>
      rw [visit_of_stepped inner, visit_stepping_true]
      rfl
    | false =>
      rw [visit_of_entered (Or.inr rfl)]
      exact (agrees_inside ih (Nat.succ_pos depth)).within

/-- A stepper outside of all nodes makes the step that a single step is, and is outside of all nodes
again then. -/
theorem agrees_step {s : Stepper} (outside : s.depth = 0) (e : Expr) :
    Agrees 0 (visit e s) (step e) := by
  obtain ⟨stepped, depth⟩ := s
  cases outside
  rw [visit_of_entered (Or.inl rfl)]
  exact (agrees_inside (fun p _ => follows_visit p) (Nat.succ_pos 0)).within

/-! ## Uses -/

/-- However often a stepper is used, and for whatever expressions, it ends outside of all nodes. -/
theorem depth_after {s : Stepper} (outside : s.depth = 0) (es : List Expr) :
    (s.after es).depth = 0 := by
  induction es generalizing s with
  | nil => exact outside
  | cons e es ih => exact ih (agrees_step outside e).depth_eq

/-- **A stepper contracts the first redex.** After any uses, for expressions of any kind, a stepper
that visits an expression with plain numerals notes that it stepped just if a rule applies to some
node. The result then is the expression with what the rule makes of the first such node in place of
it, and with all nodes apart from that one as they were. Otherwise the result is the expression
itself. -/
theorem visit_after (earlier : List Expr) (plain : e.IsPlain) :
    ∃ r stepped, visit e (unused.after earlier) = (.ok r, ⟨stepped, 0⟩) ∧
      (stepped = true ↔ ∃ path p q, e.node? path = some p ∧ contract? p = .ok (some q)) ∧
      (stepped = true → ∃ path q, e.IsFirst path q ∧ r = e.replaced path q ∧
        r.node? path = some q ∧
        ∀ path', ¬path <+: path' → ¬path' <+: path → r.node? path' = e.node? path') ∧
      (stepped = false → r = e) := by
  obtain ⟨r, stepped, stepping⟩ := exists_step plain
  have visited : Agrees 0 (visit e (unused.after earlier)) (step e) :=
    agrees_step (depth_after rfl earlier) e
  rw [stepping] at visited
  have spec := visit_stepping_first e r stepped stepping
  refine ⟨r, stepped, visited, ?_⟩
  cases stepped with
  | true =>
    obtain ⟨path, q, first, rfl⟩ := spec
    obtain ⟨p, found, contracts⟩ := first.here
    exact ⟨iff_of_true rfl ⟨path, p, q, found, contracts⟩, fun _ => ⟨path, q, first, rfl,
      node?_replaced found, fun path' => node?_replaced_of_apart⟩, nofun⟩
  | false =>
    obtain ⟨rfl, normal⟩ := spec
    refine ⟨iff_of_false Bool.false_ne_true ?_, nofun, fun _ => rfl⟩
    rintro ⟨path, p, q, found, contracts⟩
    have stuck : contract? p = .ok none := throughout_iff_node?.1 normal path p found
    rw [contracts] at stuck
    cases stuck

/-- A stepper that failed in the middle of a sum and then made a step elsewhere makes its step in
`(x + 1)(x + 2)` as well. -/
theorem visit_after_failure :
    let x : Expr := var "x" [] none
    let sum : Expr := binary .plus (unary .minus (number "1.2.3" none) none) x none
    let square : Expr := binary .power x (number "2" none) none
    let e : Expr := binary .juxtaposed (binary .plus x (number "1" none) none)
      (binary .plus x (number "2" none) none) none
    ∃ r, visit e (unused.after [sum, square]) = (.ok r, ⟨true, 0⟩) ∧
      ∃ path q, e.IsFirst path q ∧ r = e.replaced path q := by
  intro x sum square e
  have two : Numeral.IsPlain "2" :=
    @Numeral.IsShortSplit.isPlain ['2'] [] ⟨by decide, List.all_eq_true.1 rfl, by decide⟩
  have plain : e.IsPlain := by
    simp [e, x, IsPlain, HasPlainRoot, Numeral.isPlain_one, two]
  obtain ⟨r, stepped, visited, iff, first, -⟩ := visit_after [sum, square] plain
  obtain rfl : stepped = true := iff.2 ⟨[], e, _, rfl, rfl⟩
  obtain ⟨path, q, first, replaced, -⟩ := first rfl
  exact ⟨r, visited, path, q, first, replaced⟩

end TexAlgebra.Expr.Stepper
