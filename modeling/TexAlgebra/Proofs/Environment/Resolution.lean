import TexAlgebra.Proofs.Environment.Visible
import TexAlgebra.Proofs.Environment.Inner
import TexAlgebra.Proofs.Expansion.Parts
import TexAlgebra.Proofs.Formula
/-!
# How parameters are resolved

A parameter is replaced by its value in two ways: a call binds it in a scope of its own, and
currying substitutes the value in the body. Lookup takes matching variables for one and leaves
subscripts alone, while substitution replaces equal variables only, but throughout the body, in
subscripts as well. `Expr.substitute_var_eq_lookup` says when the two agree on a variable.
-/

namespace TexAlgebra

namespace Scope

variable {α : Type} {s bindings : Scope α} {x : Expr}

/-- Where nothing matches there is nothing to erase. -/
theorem erase_of_unmatched (h : ∀ b ∈ s, b.1.matchesWith x = .ok false) : s.erase x = .ok s := by
  induction s with
  | nil => rfl
  | cons b s ih =>
    obtain ⟨y, a⟩ := b
    obtain ⟨first, others⟩ := List.forall_mem_cons.1 h
    rw [erase, first, ih others]
    rfl

/-- Bindings of variables that do not match are all kept, in the order in which they are made. -/
theorem setAll_of_pairwise
    (h : (s ++ bindings).Pairwise fun b c => b.1.matchesWith c.1 = .ok false) :
    s.setAll bindings = .ok (s ++ bindings) := by
  induction bindings generalizing s with
  | nil =>
    rw [List.append_nil]
    rfl
  | cons b bindings ih =>
    obtain ⟨y, a⟩ := b
    have unmatched : ∀ c ∈ s, c.1.matchesWith y = .ok false := fun c hc =>
      (List.pairwise_append.1 h).2.2 c hc (y, a) List.mem_cons_self
    rw [List.append_cons] at h
    rw [setAll, set, erase_of_unmatched unmatched, List.append_cons]
    exact ih h

/-- Lookup finds what is bound to the class of a variable, if its variables are distinct. -/
theorem IsDistinct.lookup (h : s.IsDistinct) (keys : ∀ b ∈ s, b.1.IsWellFormed) (x : Key) :
    ∃ found, s.lookup x.expr = .ok found ∧
      ∀ a, found = some a ↔ ∃ y, (y, a) ∈ s ∧ y.matchesWith x.expr = .ok true := by
  obtain ⟨found, looked, some_case, none_case⟩ := lookup_eq x keys
  have decides : ∀ b ∈ s, b.1.matchesWith x.expr = .ok true ↔ b.1.pattern = x.expr.pattern :=
    fun b hb => (Expr.decides_matchesWith (keys b hb) x.isWellFormed).eq_true_iff
  refine ⟨found, looked, fun a => ⟨fun has => ?_, ?_⟩⟩
  · obtain ⟨y, mem, same⟩ := some_case a has
    exact ⟨y, mem, (decides _ mem).2 same⟩
  · rintro ⟨y, mem, matched⟩
    have same := (decides _ mem).1 matched
    cases found with
    | none => exact absurd same (none_case rfl _ mem)
    | some b =>
      obtain ⟨z, mem', same'⟩ := some_case b rfl
      cases h.eq_of_pattern_eq mem mem' (same.trans same'.symm)
      rfl

end Scope

namespace Environment

variable {α : Type} {env : Environment α} {bindings : Scope α}

/-- A call keeps the bindings of parameters that do not match as they are. -/
theorem setAll_push_of_pairwise
    (h : bindings.Pairwise fun b c => b.1.matchesWith c.1 = .ok false) :
    env.push.setAll bindings = .ok (env.inner bindings) := by
  rw [push_eq_inner, setAll_inner, Scope.setAll_of_pairwise h]
  rfl

end Environment

namespace Expr

variable {bindings : Scope Expr} {e x y a : Expr} {name : String} {subscripts : List Expr}
  {token : Option Token}

/-! ## Substitution -/

/-- Among distinct variables the one that is equal is replaced. -/
theorem lastBound?_of_mem (distinct : bindings.IsDistinct) (mem : (y, a) ∈ bindings)
    (equal : (y == x) = true) : lastBound? bindings x = some a := by
  rw [lastBound?]
  cases found : bindings.reverse.find? (fun b => b.1 == x) with
  | none =>
    have unequal := List.find?_eq_none.1 found (y, a) (List.mem_reverse.2 mem)
    exact absurd equal unequal
  | some b =>
    have equal' : (b.1 == x) = true :=
      List.find?_some (p := fun b : Expr × Expr => b.1 == x) found
    have mem' : b ∈ bindings := List.mem_reverse.1 (List.mem_of_find?_eq_some found)
    have same : b.1.pattern = y.pattern :=
      (pattern_eq_of_same equal').trans (pattern_eq_of_same equal).symm
    rw [distinct.eq_of_pattern_eq mem' mem same]
    rfl

/-- What is equal to no variable is not replaced. -/
theorem lastBound?_eq_none (h : ∀ b ∈ bindings, (b.1 == x) = false) :
    lastBound? bindings x = none := by
  rw [lastBound?, Option.map_eq_none_iff, List.find?_eq_none]
  intro b mem
  rw [h b (List.mem_reverse.1 mem)]
  exact Bool.false_ne_true

/-- A variable that is equal to a bound one becomes its value. -/
theorem substitute_var_of_mem (distinct : bindings.IsDistinct) (mem : (y, a) ∈ bindings)
    (equal : (y == var name subscripts token) = true) :
    (var name subscripts token).substitute bindings = a := by
  rw [substitute_var, lastBound?_of_mem distinct mem equal, Option.getD_some]

/-- A variable that is equal to no bound one stays, but its subscripts are looked at. -/
theorem substitute_var_of_unequal
    (unequal : ∀ b ∈ bindings, (b.1 == var name subscripts token) = false) :
    (var name subscripts token).substitute bindings =
      .var name (subscripts.map (substitute bindings)) token := by
  rw [substitute_var, lastBound?_eq_none unequal, Option.getD_none]

/-- Whether no part of an expression is equal to a variable that is bound. -/
def IsUntouched (bindings : Scope Expr) : Expr → Prop :=
  Throughout fun e => ∀ b ∈ bindings, (b.1 == e) = false

/-- A list whose expressions stay as they are stays as it is. -/
theorem map_substitute_eq_self (es : List Expr) (each : ∀ e ∈ es, e.substitute bindings = e) :
    es.map (substitute bindings) = es := by
  rw [List.map_congr_left each, List.map_id']

/-- A substitution leaves an expression as it is if no part of it is equal to a bound variable. -/
theorem IsUntouched.substitute_eq (h : e.IsUntouched bindings) : e.substitute bindings = e := by
  induction h with
  | @intro e root _ each =>
    cases e with
    | number => rw [substitute_number]
    | var name subscripts =>
      rw [substitute_var_of_unequal root, map_substitute_eq_self subscripts each]
    | unary op operand =>
      rw [substitute_unary, each operand List.mem_cons_self]
    | binary op lhs rhs =>
      rw [substitute_binary, each lhs List.mem_cons_self,
        each rhs (List.mem_cons_of_mem _ List.mem_cons_self)]
    | group items => rw [substitute_group, map_substitute_eq_self items each]
    | command name arguments => rw [substitute_command, map_substitute_eq_self arguments each]
    | block name arguments statements =>
      rw [substitute_block, map_substitute_eq_self statements each]
    | prototype => rw [substitute_prototype]
    | function form name parameters head body =>
      rw [substitute_function, each body (by simp [visited])]
    | call callee arguments =>
      obtain ⟨first, others⟩ := List.forall_mem_cons.1 each
      rw [substitute_call, first, map_substitute_eq_self arguments others]
    | binding target value =>
      rw [substitute_binding, each target List.mem_cons_self,
        each value (List.mem_cons_of_mem _ List.mem_cons_self)]

/-! ## Agreement -/

/-- Equal variables match if they are well-formed. -/
theorem matchesWith_of_beq (hy : y.IsWellFormed) (hx : x.IsWellFormed) (equal : (y == x) = true) :
    y.matchesWith x = .ok true :=
  (decides_matchesWith hy hx).eq_true_iff.2 (pattern_eq_of_same equal)

/-- What matches a plain name is equal to it. -/
theorem beq_of_matchesWith_name (matched : y.matchesWith (var name [] token) = .ok true) :
    (y == var name [] token) = true := by
  rw [matchesWith_name, Except.ok.injEq] at matched
  rw [beq_name, matched]

/-- A substitution replaces a variable by what its class is bound to, and leaves it as it is if that
is nothing, if the parameter of the class is equal to it and its subscripts are untouched. -/
theorem substitute_var_eq_getD {found : Option Expr} (distinct : bindings.IsDistinct)
    (keys : ∀ b ∈ bindings, b.1.IsWellFormed) (spelled : (var name subscripts token).IsWellFormed)
    (bound : ∀ a, found = some a ↔
      ∃ y, (y, a) ∈ bindings ∧ y.matchesWith (var name subscripts token) = .ok true)
    (alike : ∀ b ∈ bindings, b.1.matchesWith (var name subscripts token) = .ok true →
      (b.1 == var name subscripts token) = true)
    (untouched : ∀ e ∈ subscripts, e.IsUntouched bindings) :
    (var name subscripts token).substitute bindings =
      found.getD (var name subscripts token) := by
  cases found with
  | some a =>
    obtain ⟨y, mem, matched⟩ := (bound a).1 rfl
    exact substitute_var_of_mem distinct mem (alike _ mem matched)
  | none =>
    have unequal : ∀ b ∈ bindings, (b.1 == var name subscripts token) = false := by
      intro b mem
      by_contra equal
      have matched := matchesWith_of_beq (keys b mem) spelled (Bool.eq_true_of_not_eq_false equal)
      exact nomatch (bound b.2).2 ⟨b.1, mem, matched⟩
    rw [substitute_var_of_unequal unequal,
      map_substitute_eq_self _ fun e he => (untouched e he).substitute_eq, Option.getD_none]

/-- **Substitution and scopes agree on a variable that is spelled like its parameter.** Bindings of
parameters that do not match are all kept by a scope, and a lookup finds the value of the parameter
that matches the variable. A substitution has the value of the parameter that is equal to it, and
where there is none, the variable after a substitution in its subscripts. So it has what is found,
or the variable if nothing is found, provided that a parameter that matches the variable is equal to
it, and that the subscripts have no part that is equal to a parameter. -/
theorem substitute_var_eq_lookup (keys : ∀ b ∈ bindings, b.1.IsWellFormed)
    (apart : bindings.Pairwise fun b c => b.1.matchesWith c.1 = .ok false)
    (spelled : (var name subscripts token).IsWellFormed) :
    let x := var name subscripts token
    ∃ env found, Environment.empty.push.setAll bindings = .ok env ∧
      env.globals = [] ∧ env.scopes = [bindings] ∧ env.lookup x = .ok found ∧
      (∀ a, found = some a ↔ ∃ y, (y, a) ∈ bindings ∧ y.matchesWith x = .ok true) ∧
      (∀ y a, (y, a) ∈ bindings → (y == x) = true →
        x.substitute bindings = a ∧ found = some a) ∧
      ((∀ b ∈ bindings, (b.1 == x) = false) →
        x.substitute bindings = .var name (subscripts.map (substitute bindings)) token) ∧
      ((∀ b ∈ bindings, b.1.matchesWith x = .ok true → (b.1 == x) = true) →
        (∀ e ∈ subscripts, e.IsUntouched bindings) → x.substitute bindings = found.getD x) ∧
      (subscripts = [] → x.substitute bindings = found.getD x) := by
  intro x
  have distinct : bindings.IsDistinct := (Scope.isDistinct_iff keys).2 apart
  obtain ⟨found, looked, bound⟩ := distinct.lookup keys ⟨x, spelled⟩
  have looked_up : (Environment.empty.inner bindings).lookup x = .ok found := by
    rw [Environment.lookup_inner, looked]
    cases found <;> rfl
  have agrees := substitute_var_eq_getD distinct keys spelled bound
  refine ⟨_, found, Environment.setAll_push_of_pairwise apart, rfl, rfl, looked_up, bound, ?_,
    substitute_var_of_unequal, agrees, ?_⟩
  · intro y a mem equal
    have matched := matchesWith_of_beq (keys _ mem) spelled equal
    exact ⟨substitute_var_of_mem distinct mem equal, (bound a).2 ⟨y, mem, matched⟩⟩
  · rintro rfl
    exact agrees (fun _ _ => beq_of_matchesWith_name) (by simp)

/-- Where the subscript is spelled like that of the parameter, both ways give its value. -/
theorem substitute_var_eq_lookup_indexed :
    let x : Expr := .var "x" [.number "1" none] none
    let bindings : Scope Expr := [(x, .number "5" none), (.var "y" [] none, .number "2" none)]
    ∃ env, Environment.empty.push.setAll bindings = .ok env ∧
      env.lookup x = .ok (some (.number "5" none)) ∧
      x.substitute bindings = .number "5" none := by
  intro x bindings
  have spelled : x.IsWellFormed := (Key.indexed "x" "1" rfl).isWellFormed
  have keys : ∀ b ∈ bindings, b.1.IsWellFormed := by
    simpa [bindings, spelled] using IsWellFormed.var (by simp)
  have apart : bindings.Pairwise fun b c => b.1.matchesWith c.1 = .ok false := by
    simp [bindings, x, matchesWith_name, name?]
  obtain ⟨env, found, made, -, -, looked, -, equal_case, -⟩ :=
    substitute_var_eq_lookup keys apart spelled
  obtain ⟨replaced, rfl⟩ := equal_case x (.number "5" none) List.mem_cons_self BEq.rfl
  exact ⟨env, made, looked, replaced⟩

/-- The two ways differ for a subscript that is spelled in another way than that of the parameter,
and for a subscript that is a parameter itself. -/
theorem substitute_var_ne_lookup :
    let x (subscript : Expr) : Expr := .var "x" [subscript] none
    let y : Expr := .var "y" [] none
    let bindings : Scope Expr := [(x (.number "1" none), .number "5" none), (y, .number "2" none)]
    bindings.Pairwise (fun b c => b.1.matchesWith c.1 = .ok false) ∧
    ∃ env, Environment.empty.push.setAll bindings = .ok env ∧ env.scopes = [bindings] ∧
      env.lookup (x (.number "1.0" none)) = .ok (some (.number "5" none)) ∧
      (x (.number "1.0" none)).substitute bindings = x (.number "1.0" none) ∧
      env.lookup (x y) = .ok none ∧ (x y).substitute bindings = x (.number "2" none) := by
  intro x y bindings
  have apart : bindings.Pairwise fun b c => b.1.matchesWith c.1 = .ok false := by
    simp [bindings, x, y, matchesWith_name, name?]
  refine ⟨apart, Environment.empty.inner bindings, Environment.setAll_push_of_pairwise apart, rfl,
    ?_, ?_, ?_, ?_⟩
  · have same : (x (.number "1" none)).matchesWith (x (.number "1.0" none)) = .ok true :=
      (Key.matches_iff (x := .indexed "x" "1" rfl) (y := .indexed "x" "1.0" rfl)).2 rfl
    show (Scope.firstMatch? (x (.number "1.0" none)) bindings >>= _) = _
    rw [Scope.firstMatch?, same]
    rfl
  · rw [substitute_var, List.map_singleton, substitute_number]
    rfl
  · have numbered : (x (.number "1" none)).matchesWith (x y) = .ok false := by
      simp [x, y, matchesWith, matchesAll, matchesEach]
      rfl
    have named : y.matchesWith (x y) = .ok false := by simp [x, y, name_matchesWith, name?]
    show (Scope.firstMatch? (x y) bindings >>= _) = _
    rw [Scope.firstMatch?_eq_none (by simp [bindings, numbered, named])]
    rfl
  · rw [substitute_var, List.map_singleton, substitute_name]
    rfl

end Expr

end TexAlgebra
