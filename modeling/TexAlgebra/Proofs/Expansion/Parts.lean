import TexAlgebra.Proofs.Expansion.Passes
/-!
# Visited parts

A pass visits certain parts of a node, one after the other, and then puts what became of them in
their places. `Expr.visited` lists these parts and `Expr.withVisited` replaces them, for all kinds
of nodes alike. Both ways of expansion are passes, and `Expr.visit_of_none` and
`Expr.visit_stepping_of_none` say what they do to a node in these terms.
-/

namespace TexAlgebra.Expr

/-! ## Parts -/

/-- The parts of an expression that a pass visits, in order. -/
def visited : Expr → List Expr
  | number _ _ => []
  | var _ subscripts _ => subscripts
  | unary _ operand _ => [operand]
  | binary _ lhs rhs _ => [lhs, rhs]
  | group items _ => items
  | command _ arguments _ => arguments
  | block _ _ statements _ => statements
  | prototype name parameters _ => name :: parameters
  | function _ name parameters _ body _ _ => name :: (parameters ++ [body])
  | call callee arguments _ => callee :: arguments
  | binding target value _ => [target, value]

/-- The expression with other parts in place of those that a pass visits. There have to be as many
of them. -/
def withVisited : Expr → List Expr → Expr
  | var name _ t, es => var name es t
  | unary op _ t, [e] => unary op e t
  | binary op _ _ t, [a, b] => binary op a b t
  | group _ t, es => group es t
  | command name _ t, es => command name es t
  | block name arguments _ t, es => block name arguments es t
  | prototype _ _ t, name :: es => prototype name es t
  | function form _ _ head body closed t, name :: es =>
    function form name es.dropLast head (es.getLastD body) closed t
  | call _ _ t, callee :: es => call callee es t
  | binding _ _ t, [a, b] => binding a b t
  | e, _ => e

@[simp] theorem withVisited_function (form : FunctionForm) (name name' : Expr)
    (parameters parameters' : List Expr) (head : Option Token) (body body' : Expr)
    (closed : List (Expr × Expr)) (t : Option Token) :
    (function form name parameters head body closed t).withVisited
        (name' :: (parameters' ++ [body'])) =
      function form name' parameters' head body' closed t := by
  simp [withVisited]

variable {e : Expr} {es fs : List Expr}

/-- With its own parts an expression is itself. -/
theorem withVisited_visited (e : Expr) : e.withVisited e.visited = e := by
  cases e with
  | function => exact withVisited_function ..
  | _ => rfl

/-- Parts in place of those of a function are a name, parameters and a body. -/
theorem exists_of_length_eq_add_two {n : Nat} (length : es.length = n + 2) :
    ∃ name parameters body, es = name :: (parameters ++ [body]) := by
  obtain ⟨name, rest, rfl⟩ := List.exists_cons_of_length_eq_add_one length
  rcases List.eq_nil_or_concat rest with rfl | ⟨parameters, body, rfl⟩
  · cases length
  · exact ⟨name, parameters, body, by rw [List.concat_eq_append]⟩

/-- The parts of an expression are those that it was given. -/
theorem visited_withVisited (length : es.length = e.visited.length) :
    (e.withVisited es).visited = es := by
  cases e with
  | number => exact (List.length_eq_zero_iff.1 length).symm
  | unary =>
    obtain ⟨x, rfl⟩ := List.length_eq_one_iff.1 length
    rfl
  | binary | binding =>
    obtain ⟨x, y, rfl⟩ := List.length_eq_two.1 length
    rfl
  | prototype | call =>
    obtain ⟨x, xs, rfl⟩ := List.exists_cons_of_length_eq_add_one length
    rfl
  | function =>
    rw [visited, List.length_cons, List.length_append] at length
    obtain ⟨name, parameters, body, rfl⟩ := exists_of_length_eq_add_two length
    rw [withVisited_function]
    rfl
  | _ => rfl

/-- The last parts count. -/
theorem withVisited_withVisited (length : es.length = e.visited.length)
    (length' : fs.length = e.visited.length) :
    (e.withVisited es).withVisited fs = e.withVisited fs := by
  cases e with
  | number => rfl
  | unary =>
    obtain ⟨x, rfl⟩ := List.length_eq_one_iff.1 length
    obtain ⟨y, rfl⟩ := List.length_eq_one_iff.1 length'
    rfl
  | binary | binding =>
    obtain ⟨x, y, rfl⟩ := List.length_eq_two.1 length
    obtain ⟨x', y', rfl⟩ := List.length_eq_two.1 length'
    rfl
  | prototype | call =>
    obtain ⟨x, xs, rfl⟩ := List.exists_cons_of_length_eq_add_one length
    obtain ⟨y, ys, rfl⟩ := List.exists_cons_of_length_eq_add_one length'
    rfl
  | function =>
    rw [visited, List.length_cons, List.length_append] at length length'
    obtain ⟨name, parameters, body, rfl⟩ := exists_of_length_eq_add_two length
    obtain ⟨name', parameters', body', rfl⟩ := exists_of_length_eq_add_two length'
    rw [withVisited_function, withVisited_function, withVisited_function]
  | _ => rfl

/-- A part is smaller than the whole. -/
theorem sizeOf_lt_of_mem_visited {p : Expr} (h : p ∈ e.visited) : sizeOf p < sizeOf e := by
  have inside : ∀ {ps : List Expr} {n : Nat}, p ∈ ps → sizeOf ps ≤ n → sizeOf p < n :=
    fun mem le => Nat.lt_of_lt_of_le (List.sizeOf_lt_of_mem mem) le
  cases e with
  | number => cases h
  | unary | binary | binding =>
    simp only [visited, List.mem_cons, List.not_mem_nil, or_false] at h
    rcases h with rfl | rfl <;> decreasing_trivial
  | prototype | call =>
    simp only [visited, List.mem_cons] at h
    rcases h with rfl | h
    · decreasing_trivial
    · exact inside h (by decreasing_trivial)
  | function =>
    simp only [visited, List.mem_cons, List.mem_append, List.not_mem_nil, or_false] at h
    rcases h with rfl | h | rfl
    · decreasing_trivial
    · exact inside h (by decreasing_trivial)
    · decreasing_trivial
  | _ =>
    rw [visited] at h
    exact inside h (by decreasing_trivial)

/-- What holds of an expression if it holds of its visited parts holds of all expressions. -/
theorem visited_induction {motive : Expr → Prop} (h : ∀ e, (∀ p ∈ e.visited, motive p) → motive e)
    (e : Expr) : motive e :=
  h e fun p _ => visited_induction h p
termination_by sizeOf e
decreasing_by exact sizeOf_lt_of_mem_visited ‹_›

/-- Whether something holds of an expression and of all its visited parts, their visited parts
included. -/
inductive Throughout (P : Expr → Prop) : Expr → Prop
  | intro {e : Expr} (root : P e) (parts : ∀ p ∈ e.visited, Throughout P p) : Throughout P e

/-- What holds throughout an expression holds of it. -/
theorem Throughout.root {P : Expr → Prop} (h : Throughout P e) : P e := by
  cases h with
  | intro root => exact root

/-- What holds throughout an expression holds throughout its parts. -/
theorem Throughout.parts {P : Expr → Prop} (h : Throughout P e) :
    ∀ p ∈ e.visited, Throughout P p := by
  cases h with
  | intro _ parts => exact parts

section

variable {P Q : Expr → Prop} {op : Operator} {a b : Expr} {t : Option Token}

/-- Something holds throughout an expression if it holds of it and throughout its parts. -/
theorem throughout_iff : Throughout P e ↔ P e ∧ ∀ p ∈ e.visited, Throughout P p :=
  ⟨fun h => ⟨h.root, h.parts⟩, fun h => .intro h.1 h.2⟩

@[simp] theorem throughout_number {text : String} :
    Throughout P (number text t) ↔ P (number text t) := by
  simp [throughout_iff (e := number text t), visited]

@[simp] theorem throughout_var_nil {name : String} :
    Throughout P (var name [] t) ↔ P (var name [] t) := by
  simp [throughout_iff (e := var name [] t), visited]

@[simp] theorem throughout_unary :
    Throughout P (unary op a t) ↔ P (unary op a t) ∧ Throughout P a := by
  simp [throughout_iff (e := unary op a t), visited]

@[simp] theorem throughout_binary : Throughout P (binary op a b t) ↔
    P (binary op a b t) ∧ Throughout P a ∧ Throughout P b := by
  simp [throughout_iff (e := binary op a b t), visited]

/-- What holds throughout an operation holds throughout its left operand. -/
theorem Throughout.left (h : Throughout P (binary op a b t)) : Throughout P a :=
  (throughout_binary.1 h).2.1

/-- What holds throughout an operation holds throughout its right operand. -/
theorem Throughout.right (h : Throughout P (binary op a b t)) : Throughout P b :=
  (throughout_binary.1 h).2.2

/-- What follows from something throughout an expression holds throughout. -/
theorem Throughout.mono (h : Throughout P e) (le : ∀ e, P e → Q e) : Throughout Q e := by
  induction h with
  | intro root _ ih => exact .intro (le _ root) ih

/-- Two things that hold throughout hold together throughout. -/
theorem Throughout.and (h : Throughout P e) (h' : Throughout Q e) :
    Throughout (fun e => P e ∧ Q e) e := by
  induction h with
  | intro root _ ih => exact .intro ⟨root, h'.root⟩ fun p mem => ih p mem (h'.parts p mem)

end

/-! ## Passes -/

section

variable {m : Type → Type} [Monad m] [LawfulMonad m]

/-- A pass visits one list after the other. -/
theorem visitAll_append (pass : Pass m) (es fs : List Expr) :
    visitAll pass (es ++ fs) = do
      let rs ← visitAll pass es
      let ss ← visitAll pass fs
      return rs ++ ss := by
  induction es with
  | nil => simp [visitAll]
  | cons e es ih => simp [visitAll, ih]

/-- A pass without replacements visits the parts of a node and then finishes the node. -/
theorem visit_of_none {pass : Pass m} (asks : ∀ e, pass.replacement? e = pure none) (e : Expr) :
    visit pass e = (do pass.finish (e.withVisited (← visitAll pass e.visited))) := by
  rw [visit.eq_def, asks, pure_bind]
  cases e with
  | function form name parameters head body closed t =>
    dsimp only
    rw [asks, pure_bind, visited, visitAll, visitAll_append]
    simp [visitAll]
  | number | unary | binary | prototype | call | binding => simp [visited, withVisited, visitAll]
  | _ => rfl

end

/-! ## Single steps -/

/-- Where a rule was applied before, nothing is done any more. -/
theorem visit_stepping_true (e : Expr) : visit stepping e true = .ok (e, true) := by
  rw [visit.eq_def]
  rfl

variable {r : Expr}

/-- A step stops at an expression that contracts. -/
theorem visit_stepping_of_some (contracts : contract? e = .ok (some r)) :
    visit stepping e false = .ok (r, true) := by
  have asked : stepping.replacement? e false = .ok (some r, true) := by
    show ((do return (← contract? e, false) : Except Obstacle _) >>= fun a => _) = _
    rw [contracts]
    rfl
  rw [visit.eq_def]
  show (stepping.replacement? e false >>= fun a => _) = _
  rw [asked]
  rfl

/-- A step fails at an expression whose contraction fails. -/
theorem visit_stepping_of_error {o : Obstacle} (fails : contract? e = .error o) :
    visit stepping e false = .error o := by
  have asked : stepping.replacement? e false = .error o := by
    show ((do return (← contract? e, false) : Except Obstacle _) >>= fun a => _) = _
    rw [fails]
    rfl
  rw [visit.eq_def]
  show (stepping.replacement? e false >>= fun a => _) = _
  rw [asked]
  rfl

/-- Where no rule applies to a node, its parts are visited. -/
theorem visit_stepping_of_none (stuck : contract? e = .ok none) :
    visit stepping e false = (e.withVisited <$> visitAll stepping e.visited) false := by
  have asked : ∀ {p : Expr}, contract? p = .ok none →
      stepping.replacement? p false = pure (none, false) := by
    intro p stuck
    show ((do return (← contract? p, false) : Except Obstacle _) >>= fun a => _) = _
    rw [stuck]
    rfl
  rw [visit.eq_def]
  show (stepping.replacement? e false >>= fun a => _) = _
  rw [asked stuck, pure_bind]
  cases e with
  | function form name parameters head body closed t =>
    show (stepping.replacement? (prototype name parameters head) false >>= fun a => _) = _
    rw [asked rfl, visited, visitAll, visitAll_append]
    have visits : (do
        let name ← visit stepping name
        let parameters ← visitAll stepping parameters
        let body ← visit stepping body
        stepping.finish (function form name parameters head body closed t)) =
      (function form name parameters head body closed t).withVisited <$> (do
        let name ← visit stepping name
        let rest ← (do
          let parameters ← visitAll stepping parameters
          let body ← visitAll stepping [body]
          return parameters ++ body)
        return name :: rest) := by
      simp [visitAll, stepping]
    exact congrFun visits false
  | unary | binary | prototype | call | binding =>
    dsimp only
    refine congrFun ?_ false
    simp [visited, withVisited, visitAll, stepping]
  | _ => rfl

end TexAlgebra.Expr
