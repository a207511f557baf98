import TexAlgebra.Proofs.Environment.Stack
import TexAlgebra.Proofs.Equality
/-!
# Visible bindings

The listing of the visible bindings puts the scopes on top of one another, the innermost one last.
For a lookup variables that match are one variable, but what is put on top only hides bindings of
equal variables. So what a lookup finds is in the listing, and a binding that no lookup finds may be
there as well, if its variable is spelled in another way (`Environment.bindings_agree`).
-/

namespace TexAlgebra

namespace Scope

variable {α : Type} {s s' inner : Scope α} {m : Finmap fun _ : Key.Class => α} {x z : Expr} {a : α}
  {b : Expr × α} {found : Option α}

/-- Whether a scope binds no two variables of one class. -/
def IsDistinct (s : Scope α) : Prop := s.Pairwise fun b c => b.1.pattern ≠ c.1.pattern

/-- Whether variables of a scope that match are spelled alike. -/
def IsSpelledAlike (s : Scope α) : Prop :=
  ∀ b ∈ s, ∀ c ∈ s, b.1.matchesWith c.1 = .ok true → (b.1 == c.1) = true

/-- Among distinct bindings those of one pattern are one. -/
theorem IsDistinct.eq_of_pattern_eq {c : Expr × α} (h : s.IsDistinct) (hb : b ∈ s) (hc : c ∈ s)
    (same : b.1.pattern = c.1.pattern) : b = c := by
  have : Std.Symm fun b c : Expr × α => b.1.pattern ≠ c.1.pattern := ⟨fun _ _ => Ne.symm⟩
  by_contra other
  exact h.forall hb hc other same

/-- Well-formed variables are distinct if no two of them match. -/
theorem isDistinct_iff (keys : ∀ b ∈ s, b.1.IsWellFormed) :
    s.IsDistinct ↔ s.Pairwise fun b c => b.1.matchesWith c.1 = .ok false :=
  List.Pairwise.iff_of_mem fun hb hc =>
    (Expr.decides_matchesWith (keys _ hb) (keys _ hc)).eq_false_iff.symm

/-- Well-formed variables are spelled alike if those that match are equal. -/
theorem isSpelledAlike_iff (keys : ∀ b ∈ s, b.1.IsWellFormed) :
    s.IsSpelledAlike ↔
      ∀ b ∈ s, ∀ c ∈ s, b.1.pattern = c.1.pattern → (b.1 == c.1) = true :=
  forall₂_congr fun b hb => forall₂_congr fun c hc =>
    imp_congr_left (Expr.decides_matchesWith (keys b hb) (keys c hc)).eq_true_iff

/-! ## What is found for a class -/

/-- Whether `found` is what a scope binds a class to, for whichever of its variables. -/
def Finds (s : Scope α) (x : Expr) : Option α → Prop
  | some a => ∃ y, (y, a) ∈ s ∧ y.pattern = x.pattern
  | none => ∀ b ∈ s, b.1.pattern ≠ x.pattern

/-- What a scope holds for a class is what its map holds. -/
theorem Represents.finds (h : s.Represents m) (x : Key) :
    s.Finds x.expr (m.lookup x.toClass) := by
  cases has : m.lookup x.toClass with
  | some a => exact (h.bound x a).1 has
  | none =>
    intro b mem same
    rw [(h.bound x b.2).2 ⟨b.1, mem, same⟩] at has
    cases has

/-- What is found for a class depends on the bindings of that class alone. -/
theorem Finds.congr (h : s.Finds z found)
    (same : ∀ b : Expr × α, b.1.pattern = z.pattern → (b ∈ s' ↔ b ∈ s)) : s'.Finds z found := by
  cases found with
  | some a =>
    obtain ⟨y, mem, pattern⟩ := h
    exact ⟨y, (same (y, a) pattern).2 mem, pattern⟩
  | none => exact fun b mem pattern => h b ((same b pattern).1 mem) pattern

/-! ## Variables -/

/-- Whether a listing shows the variables of a scope, of equal ones at least one. -/
structure Lists (listing s : Scope α) : Prop where
  bound : ∀ b ∈ listing, ∃ c ∈ s, c.1 = b.1
  listed : ∀ b ∈ s, ∃ c ∈ listing, (c.1 == b.1) = true

/-- A scope lists its own bindings. -/
theorem Lists.refl (s : Scope α) : s.Lists s where
  bound b mem := ⟨b, mem, rfl⟩
  listed b mem := ⟨b, mem, BEq.rfl⟩

/-- What is listed of a listing is listed. -/
theorem Lists.trans {listing : Scope α} (h : listing.Lists s) (h' : s.Lists s') :
    listing.Lists s' where
  bound b mem := by
    obtain ⟨c, mem, same⟩ := h.bound b mem
    obtain ⟨d, mem, same'⟩ := h'.bound c mem
    exact ⟨d, mem, same'.trans same⟩
  listed b mem := by
    obtain ⟨c, mem, same⟩ := h'.listed b mem
    obtain ⟨d, mem, same'⟩ := h.listed c mem
    exact ⟨d, mem, BEq.trans same' same⟩

/-- More bindings are listed with their own. -/
theorem Lists.append (h : s.Lists s') (inner : Scope α) : (s ++ inner).Lists (s' ++ inner) where
  bound b mem := by
    rcases List.mem_append.1 mem with mem | mem
    · obtain ⟨c, mem, same⟩ := h.bound b mem
      exact ⟨c, List.mem_append_left _ mem, same⟩
    · exact ⟨b, List.mem_append_right _ mem, rfl⟩
  listed b mem := by
    rcases List.mem_append.1 mem with mem | mem
    · obtain ⟨c, mem, same⟩ := h.listed b mem
      exact ⟨c, List.mem_append_left _ mem, same⟩
    · exact ⟨b, List.mem_append_right _ mem, BEq.rfl⟩

/-- What holds of all variables of a scope holds of those that are listed. -/
theorem Lists.forall {P : Expr → Prop} (h : s.Lists s') (all : ∀ b ∈ s', P b.1) :
    ∀ b ∈ s, P b.1 := by
  intro b mem
  obtain ⟨c, mem, same⟩ := h.bound b mem
  exact same ▸ all c mem

/-- Among variables that are spelled alike those that are listed are, too. -/
theorem Lists.isSpelledAlike (h : s.Lists s') (alike : s'.IsSpelledAlike) :
    s.IsSpelledAlike := by
  intro b hb c hc
  obtain ⟨b', hb, same⟩ := h.bound b hb
  obtain ⟨c', hc, same'⟩ := h.bound c hc
  rw [← same, ← same']
  exact alike b' hb c' hc

/-! ## Single bindings -/

/-- What is put into a scope takes the place of the value of an equal variable, or else comes last.
-/
theorem put_cases (s : Scope α) (x : Expr) (a : α) :
    (∃ before y b after, s = before ++ (y, b) :: after ∧ (y == x) = true ∧
      s.put x a = before ++ (y, a) :: after) ∨
    (∀ b ∈ s, (b.1 == x) = false) ∧ s.put x a = s ++ [(x, a)] := by
  induction s with
  | nil => exact .inr ⟨by simp, rfl⟩
  | cons b s ih =>
    obtain ⟨y, b⟩ := b
    rw [put]
    by_cases same : (y == x) = true
    · exact .inl ⟨[], y, b, s, rfl, same, if_pos same⟩
    · rw [if_neg same]
      rcases ih with ⟨before, z, c, after, rfl, found, result⟩ | ⟨new, result⟩
      · exact .inl ⟨(y, b) :: before, z, c, after, rfl, found, congrArg _ result⟩
      · exact .inr ⟨List.forall_mem_cons.2 ⟨Bool.eq_false_of_not_eq_true same, new⟩,
          congrArg _ result⟩

/-- What was put is found. -/
theorem finds_put (s : Scope α) (x : Expr) (a : α) : (s.put x a).Finds x (some a) := by
  rcases s.put_cases x a with ⟨before, y, b, after, -, same, result⟩ | ⟨-, result⟩
  · exact ⟨y, by simp [result], Expr.pattern_eq_of_same same⟩
  · exact ⟨x, by simp [result], rfl⟩

/-- What is put into a scope makes no difference to the other classes. -/
theorem mem_put (other : b.1.pattern ≠ x.pattern) : b ∈ s.put x a ↔ b ∈ s := by
  have differs : ∀ {y c}, y.pattern = x.pattern → b ≠ (y, c) := by
    rintro y c same rfl
    exact other same
  rcases s.put_cases x a with ⟨before, y, c, after, rfl, same, result⟩ | ⟨-, result⟩
  · simp [result, differs (Expr.pattern_eq_of_same same)]
  · simp [result, differs rfl]

/-- Nothing is listed but what was there and what was put. -/
theorem lists_put (s : Scope α) (x : Expr) (a : α) : (s.put x a).Lists (s ++ [(x, a)]) := by
  rcases s.put_cases x a with ⟨before, y, c, after, rfl, same, result⟩ | ⟨-, result⟩
  · rw [result]
    constructor
    · intro b mem
      simp only [List.mem_append, List.mem_cons] at mem
      rcases mem with mem | rfl | mem
      · exact ⟨b, by simp [mem], rfl⟩
      · exact ⟨(y, c), by simp, rfl⟩
      · exact ⟨b, by simp [mem], rfl⟩
    · intro b mem
      simp only [List.mem_append, List.mem_cons, List.not_mem_nil, or_false] at mem
      rcases mem with (mem | rfl | mem) | rfl
      · exact ⟨b, by simp [mem], BEq.rfl⟩
      · exact ⟨(y, a), by simp, BEq.rfl⟩
      · exact ⟨b, by simp [mem], BEq.rfl⟩
      · exact ⟨(y, a), by simp, same⟩
  · rw [result]
    exact .refl _

/-- A scope stays distinct if the class of what is put into it is spelled in one way. -/
theorem IsDistinct.put (h : s.IsDistinct)
    (alike : ∀ b ∈ s, b.1.pattern = x.pattern → (b.1 == x) = true) (a : α) :
    (s.put x a).IsDistinct := by
  rcases s.put_cases x a with ⟨before, y, c, after, rfl, -, result⟩ | ⟨new, result⟩
  · rw [IsDistinct, List.pairwise_append, List.pairwise_cons] at h
    rw [result, IsDistinct, List.pairwise_append, List.pairwise_cons]
    simpa using h
  · rw [result, IsDistinct, List.pairwise_append]
    refine ⟨h, List.pairwise_singleton _ _, fun b hb c hc same => ?_⟩
    obtain rfl := List.mem_singleton.1 hc
    have equal := alike b hb same
    rw [new b hb] at equal
    cases equal

/-! ## Scopes on top of one another -/

/-- Bindings are put one after the other. -/
theorem overlaid_cons (s : Scope α) (b : Expr × α) (inner : Scope α) :
    s.overlaid (b :: inner) = (s.put b.1 b.2).overlaid inner := rfl

/-- What an inner scope does not bind stays as it is. -/
theorem mem_overlaid (other : ∀ c ∈ inner, b.1.pattern ≠ c.1.pattern) :
    b ∈ s.overlaid inner ↔ b ∈ s := by
  induction inner generalizing s with
  | nil => exact Iff.rfl
  | cons c inner ih =>
    obtain ⟨first, others⟩ := List.forall_mem_cons.1 other
    rw [overlaid_cons, ih others, mem_put first]

/-- What the inner scope does not bind is found as before. -/
theorem Finds.overlaid (h : s.Finds z found) (unbound : inner.Finds z none) :
    (s.overlaid inner).Finds z found :=
  h.congr fun _ same => mem_overlaid fun c mem => same ▸ (unbound c mem).symm

/-- What an inner scope binds comes out on top. -/
theorem finds_overlaid (h : inner.Finds z (some a)) (distinct : inner.IsDistinct) (s : Scope α) :
    (s.overlaid inner).Finds z (some a) := by
  induction inner generalizing s with
  | nil =>
    obtain ⟨y, mem, -⟩ := h
    cases mem
  | cons c inner ih =>
    obtain ⟨first, others⟩ := List.pairwise_cons.1 distinct
    obtain ⟨y, mem, pattern⟩ := h
    rcases List.mem_cons.1 mem with rfl | mem
    · -- it is put first, and what follows is of other classes
      rw [overlaid_cons]
      obtain ⟨k, put, same⟩ := finds_put s y a
      exact ⟨k, (mem_overlaid fun c hc => same ▸ first c hc).2 put, same.trans pattern⟩
    · exact ih ⟨y, mem, pattern⟩ others _

/-- Nothing is listed but what one of the scopes binds. -/
theorem lists_overlaid (s inner : Scope α) : (s.overlaid inner).Lists (s ++ inner) := by
  induction inner generalizing s with
  | nil =>
    rw [List.append_nil]
    exact .refl s
  | cons c inner ih =>
    rw [List.append_cons]
    exact (ih _).trans ((lists_put s c.1 c.2).append inner)

/-- Distinct scopes are distinct on top of one another if their variables are spelled alike. -/
theorem IsDistinct.overlaid (h : s.IsDistinct) (keys : ∀ b ∈ s ++ inner, b.1.IsWellFormed)
    (alike : (s ++ inner).IsSpelledAlike) : (s.overlaid inner).IsDistinct := by
  induction inner generalizing s with
  | nil => exact h
  | cons c inner ih =>
    have lists : (s.put c.1 c.2 ++ inner).Lists (s ++ c :: inner) := by
      simpa using (lists_put s c.1 c.2).append inner
    refine ih (h.put (fun b hb => ?_) c.2) (lists.forall keys) (lists.isSpelledAlike alike)
    exact (isSpelledAlike_iff keys).1 alike b (by simp [hb]) c (by simp)

end Scope

namespace Environment

variable {α : Type} {env : Environment α} {st : Stack α}

/-- The bindings of all scopes, from the outermost to the innermost one. -/
def all (env : Environment α) : Scope α := env.globals ++ env.scopes.reverse.flatten

/-- Without inner scopes there are the global bindings. -/
theorem all_nil (globals : Scope α) : (⟨globals, []⟩ : Environment α).all = globals := by
  simp [all]

/-- An inner scope adds its bindings. -/
theorem all_cons (globals s : Scope α) (outer : List (Scope α)) :
    (⟨globals, s :: outer⟩ : Environment α).all = (⟨globals, outer⟩ : Environment α).all ++ s := by
  simp [all]

/-- An inner scope is put on top of those outside. -/
theorem bindings_cons (globals s : Scope α) (outer : List (Scope α)) :
    (⟨globals, s :: outer⟩ : Environment α).bindings =
      (⟨globals, outer⟩ : Environment α).bindings.overlaid s := by
  simp [bindings]

/-- Nothing is listed but what some scope binds. -/
theorem lists_bindings (env : Environment α) : env.bindings.Lists env.all := by
  obtain ⟨globals, scopes⟩ := env
  induction scopes with
  | nil =>
    rw [all_nil]
    exact .refl globals
  | cons s outer ih =>
    rw [bindings_cons, all_cons]
    exact (Scope.lists_overlaid _ s).trans (ih.append s)

/-- All bound variables are well-formed. -/
theorem Refines.all_isWellFormed (h : env.Refines st) : ∀ b ∈ env.all, b.1.IsWellFormed := by
  obtain ⟨globals, scopes⟩ := env
  obtain ⟨bottom, above⟩ := st
  obtain ⟨first, others⟩ := h
  simp only at first others
  induction others with
  | nil =>
    rw [all_nil]
    exact first.keys
  | cons inner _ ih =>
    rw [all_cons]
    exact List.forall_mem_append.2 ⟨ih, inner.keys⟩

/-- The listing has what a lookup finds. -/
theorem Refines.finds_bindings (h : env.Refines st) (x : Key) :
    env.bindings.Finds x.expr (st.lookup x.toClass) := by
  obtain ⟨globals, scopes⟩ := env
  obtain ⟨bottom, above⟩ := st
  obtain ⟨first, others⟩ := h
  simp only at first others
  induction others with
  | nil => simpa [Stack.lookup, bindings] using first.finds x
  | @cons s m outer above inner _ ih =>
    have bound := inner.finds x
    rw [bindings_cons, Stack.lookup, List.cons_append, List.findSome?_cons]
    cases has : m.lookup x.toClass with
    | some a =>
      rw [has] at bound
      exact Scope.finds_overlaid bound inner.distinct _
    | none =>
      rw [has] at bound
      exact ih.overlaid bound

/-- If all bound variables are spelled alike, the listed ones are distinct. -/
theorem Refines.isDistinct_bindings (h : env.Refines st) (alike : env.all.IsSpelledAlike) :
    env.bindings.IsDistinct := by
  obtain ⟨globals, scopes⟩ := env
  obtain ⟨bottom, above⟩ := st
  obtain ⟨first, others⟩ := h
  simp only at first others
  induction others with
  | nil => exact first.distinct
  | @cons s m outer above inner others ih =>
    have refines : Refines ⟨globals, s :: outer⟩ ⟨bottom, m :: above⟩ :=
      ⟨first, .cons inner others⟩
    have keys := refines.all_isWellFormed
    rw [all_cons] at alike keys
    have lists := (lists_bindings ⟨globals, outer⟩).append s
    rw [bindings_cons]
    refine (ih fun b hb c hc => ?_).overlaid (lists.forall keys) (lists.isSpelledAlike alike)
    exact alike b (List.mem_append_left _ hb) c (List.mem_append_left _ hc)

/-- If no two listed variables match, then those of the scopes that match are spelled alike. -/
theorem Refines.isSpelledAlike (h : env.Refines st) (distinct : env.bindings.IsDistinct) :
    env.all.IsSpelledAlike := by
  rw [Scope.isSpelledAlike_iff h.all_isWellFormed]
  intro b hb c hc same
  obtain ⟨b', hb, equal⟩ := env.lists_bindings.listed b hb
  obtain ⟨c', hc, equal'⟩ := env.lists_bindings.listed c hc
  have pattern : b'.1.pattern = c'.1.pattern :=
    (Expr.pattern_eq_of_same equal).trans (same.trans (Expr.pattern_eq_of_same equal').symm)
  obtain rfl := distinct.eq_of_pattern_eq hb hc pattern
  exact BEq.trans (BEq.symm equal) equal'

/-- All listed variables are well-formed. -/
theorem Refines.bindings_isWellFormed (h : env.Refines st) :
    ∀ b ∈ env.bindings, b.1.IsWellFormed :=
  env.lists_bindings.forall h.all_isWellFormed

/-- In a listing of distinct variables each value is what a lookup of its variable finds. -/
theorem Refines.lookup_of_mem_bindings (h : env.Refines st) (distinct : env.bindings.IsDistinct)
    {b : Expr × α} (mem : b ∈ env.bindings) : env.lookup b.1 = .ok (some b.2) := by
  have bound := h.finds_bindings ⟨b.1, h.bindings_isWellFormed b mem⟩
  rw [h.lookup ⟨b.1, h.bindings_isWellFormed b mem⟩]
  cases has : st.lookup (Key.toClass ⟨b.1, h.bindings_isWellFormed b mem⟩) with
  | none =>
    rw [has] at bound
    exact absurd rfl (bound b mem)
  | some a =>
    rw [has] at bound
    obtain ⟨y, hy, pattern⟩ := bound
    rw [distinct.eq_of_pattern_eq mem hy pattern.symm]

/-! ## Operations -/

/-- Behind an operation there is a stack again. -/
theorem Refines.exists_of_perform {env' : Environment α} {o : Operation α} (h : env.Refines st)
    (done : env.perform o = .ok env') : ∃ st', env'.Refines st' := by
  have made : ∃ st', st.perform? o = some st' := by
    cases o with
    | pop =>
      obtain ⟨globals, scopes⟩ := env
      obtain ⟨bottom, above⟩ := st
      cases h.scopes with
      | nil => cases done
      | cons => exact ⟨_, rfl⟩
    | _ => exact ⟨_, rfl⟩
  obtain ⟨st', made⟩ := made
  obtain ⟨env₁, done', refines⟩ := h.perform made
  cases done.symm.trans done'
  exact ⟨st', refines⟩

/-- Behind several operations there is a stack again. -/
theorem Refines.exists_of_performAll {env' : Environment α} {os : List (Operation α)}
    (h : env.Refines st) (done : env.performAll os = .ok env') : ∃ st', env'.Refines st' := by
  induction os generalizing env st with
  | nil =>
    cases done
    exact ⟨st, h⟩
  | cons o os ih =>
    obtain ⟨env₁, first, later⟩ := ok_of_bind done
    obtain ⟨st₁, refines⟩ := h.exists_of_perform first
    exact ih refines later

/-- After any operations a variable has the value of every variable that matches it. -/
theorem Refines.lookup_congr (h : env.Refines st) {x y : Expr} (hx : x.IsWellFormed)
    (hy : y.IsWellFormed) (same : x.pattern = y.pattern) : env.lookup x = env.lookup y := by
  have class_eq : Key.toClass ⟨x, hx⟩ = Key.toClass ⟨y, hy⟩ := Key.toClass_eq_iff.2 same
  exact (h.lookup ⟨x, hx⟩).trans (class_eq ▸ (h.lookup ⟨y, hy⟩).symm)

/-- What is bound after some operations was bound before, or by one of them. -/
theorem AllValues.performAll {P : α → Prop} {env' : Environment α} {os : List (Operation α)}
    (h : env.AllValues P) (made : ∀ x a, .set x a ∈ os → P a)
    (done : env.performAll os = .ok env') : env'.AllValues P := by
  induction os generalizing env with
  | nil =>
    cases done
    exact h
  | cons o os ih =>
    obtain ⟨env₁, first, later⟩ := ok_of_bind done
    refine ih ?_ (fun x a mem => made x a (List.mem_cons_of_mem _ mem)) later
    obtain ⟨globals, scopes⟩ := env
    cases o with
    | push =>
      cases first
      exact h.push
    | pop =>
      cases scopes with
      | nil => cases first
      | cons s outer =>
        cases first
        exact fun s hs => h s (List.mem_cons_of_mem _ hs)
    | unwind =>
      cases first
      exact fun s hs => h s (List.mem_append_right _ hs)
    | set x a => exact h.set (made x a List.mem_cons_self) first

/-- **The listing agrees with lookup where variables are spelled alike.** After any operations, what
a lookup finds for a variable is listed, with a variable that matches, and if it finds nothing, then
no variable that matches is listed. Each class is listed once just if variables of the scopes that
match are spelled alike, and then each listed value is what a lookup of its variable finds. -/
theorem bindings_agree {os : List (Operation α)}
    (reached : Environment.empty.performAll os = .ok env) :
    (∀ x : Key, ∃ found, env.lookup x.expr = .ok found ∧
      (∀ a, found = some a → ∃ y, (y, a) ∈ env.bindings ∧ y.matchesWith x.expr = .ok true) ∧
      (found = none → ∀ b ∈ env.bindings, b.1.matchesWith x.expr = .ok false)) ∧
    (env.bindings.Pairwise (fun b c => b.1.matchesWith c.1 = .ok false) ↔
      env.all.IsSpelledAlike) ∧
    (env.all.IsSpelledAlike → ∀ b ∈ env.bindings, env.lookup b.1 = .ok (some b.2)) := by
  obtain ⟨st, refines⟩ := refines_empty.exists_of_performAll reached
  have keys := refines.bindings_isWellFormed
  refine ⟨fun x => ⟨st.lookup x.toClass, refines.lookup x, ?_, ?_⟩, ?_, ?_⟩
  · intro a has
    have bound := refines.finds_bindings x
    rw [has] at bound
    obtain ⟨y, mem, pattern⟩ := bound
    exact ⟨y, mem, (Expr.decides_matchesWith (keys _ mem) x.isWellFormed).eq_true_iff.2 pattern⟩
  · intro has b mem
    have unbound := refines.finds_bindings x
    rw [has] at unbound
    exact (Expr.decides_matchesWith (keys b mem) x.isWellFormed).eq_false_iff.2 (unbound b mem)
  · rw [← Scope.isDistinct_iff keys]
    exact ⟨refines.isSpelledAlike, refines.isDistinct_bindings⟩
  · exact fun alike b => refines.lookup_of_mem_bindings (refines.isDistinct_bindings alike)

/-- Where a subscript is spelled in one way in all scopes, what is listed is what lookup finds. -/
theorem bindings_agree_nested :
    ∃ env, Environment.empty.performAll
        [.set (.indexed "x" "1" rfl) 2, .push, .set (.indexed "x" "1" rfl) 3] = .ok env ∧
      ∀ b ∈ env.bindings, env.lookup b.1 = .ok (some b.2) := by
  let x : Expr := .var "x" [.number "1" none] none
  let env : Environment ℕ := ⟨[(x, 2)], [[(x, 3)]]⟩
  have reached : Environment.empty.performAll
      [.set (.indexed "x" "1" rfl) 2, .push, .set (.indexed "x" "1" rfl) 3] = .ok env := rfl
  have alike : env.all.IsSpelledAlike := by
    intro b hb c hc _
    have variables_eq : ∀ b ∈ env.all, b.1 = x := by simp [env, all]
    rw [variables_eq b hb, variables_eq c hc]
    exact BEq.rfl
  exact ⟨env, reached, (bindings_agree reached).2.2 alike⟩

/-- A binding that lookup does not find, as the subscript is spelled in another way in the inner
scope, is still listed. -/
theorem bindings_disagree_respelled :
    let x : Key := .indexed "x" "1" rfl
    let respelled : Key := .indexed "x" "1.0" rfl
    ∃ env, Environment.empty.performAll [.set x 2, .push, .set respelled 3] = .ok env ∧
      env.bindings = [(x.expr, 2), (respelled.expr, 3)] ∧
      x.expr.matchesWith respelled.expr = .ok true ∧ env.lookup x.expr = .ok (some 3) := by
  intro x respelled
  have same : respelled.expr.matchesWith x.expr = .ok true := Key.matches_iff.2 rfl
  refine ⟨⟨[(x.expr, 2)], [[(respelled.expr, 3)]]⟩, rfl, rfl, Key.matches_equivalence.symm same, ?_⟩
  show (Scope.firstMatch? x.expr [(respelled.expr, 3)] >>= _) = _
  rw [Scope.firstMatch?, same]
  rfl

end Environment

end TexAlgebra
