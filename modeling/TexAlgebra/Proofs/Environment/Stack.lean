import Mathlib.Data.Finmap
import TexAlgebra.Proofs.Environment.Extended
import TexAlgebra.Proofs.Matching
/-!
# Environments as stacks of finite maps

Variables that match count as one variable. Then every scope is a finite map, and an environment is
a stack of such maps: a binding is made in the map on top, and a variable is looked up in the
topmost map that has it. `Environment.refines_stack` says so of every sequence of operations. It
needs two things of a scope: no two of its variables match, so that eviction before a binding and
the two ways of looking up agree, and matching never fails on them.
-/

namespace TexAlgebra

/-! ## Keys -/

/-- A variable whose numbers all have values; any other expression of this kind will do too. -/
structure Key where
  expr : Expr
  isWellFormed : expr.IsWellFormed

namespace Key

/-- Two keys match if they have the same pattern. -/
theorem matches_iff {x y : Key} :
    x.expr.matchesWith y.expr = .ok true ↔ x.expr.pattern = y.expr.pattern :=
  (Expr.decides_matchesWith x.isWellFormed y.isWellFormed).eq_true_iff

/-- Matching is an equivalence on keys. -/
theorem matches_equivalence :
    Equivalence fun x y : Key => x.expr.matchesWith y.expr = .ok true where
  refl x := Expr.matchesWith_refl x.isWellFormed
  symm h := matches_iff.2 (matches_iff.1 h).symm
  trans h h' := matches_iff.2 ((matches_iff.1 h).trans (matches_iff.1 h'))

instance setoid : Setoid Key := ⟨_, matches_equivalence⟩

instance (x y : Key) : Decidable (x ≈ y) :=
  inferInstanceAs (Decidable (x.expr.matchesWith y.expr = .ok true))

/-- The class of all keys that match each other. -/
abbrev Class := Quotient setoid

/-- The class of a key. -/
def toClass (x : Key) : Class := ⟦x⟧

/-- Two keys are in one class if they have the same pattern. -/
theorem toClass_eq_iff {x y : Key} : x.toClass = y.toClass ↔ x.expr.pattern = y.expr.pattern :=
  Quotient.eq.trans matches_iff

/-- A variable with a number as its only subscript. -/
def indexed (name text : String) (spelled : (Numeral.value? text).isSome) : Key where
  expr := .var name [.number text none] none
  isWellFormed := .var (by simpa using .number (Option.some_get spelled).symm)

/-- The spelling of a subscript does not change the class. -/
theorem toClass_indexed {name s t : String} (hs : (Numeral.value? s).isSome)
    (ht : (Numeral.value? t).isSome) (same : Numeral.value? s = Numeral.value? t) :
    (indexed name s hs).toClass = (indexed name t ht).toClass := by
  rw [toClass_eq_iff]
  simp [indexed, Expr.pattern, Expr.patterns, same]

end Key

/-! ## The stack -/

/-- What can be done with an environment. -/
inductive Operation (α : Type) where
  | push
  | pop
  | unwind
  | set (x : Key) (a : α)

/-- A map at the bottom, and the maps above it, the topmost first. -/
structure Stack (α : Type) where
  bottom : Finmap fun _ : Key.Class => α
  above : List (Finmap fun _ : Key.Class => α)

namespace Stack

variable {α : Type}

/-- The empty map alone. -/
def empty : Stack α := ⟨∅, []⟩

/-- What the topmost map that has the class binds it to. -/
def lookup (st : Stack α) (c : Key.Class) : Option α :=
  (st.above ++ [st.bottom]).findSome? (·.lookup c)

/-- The stack with a class bound in its topmost map. -/
def set (st : Stack α) (c : Key.Class) (a : α) : Stack α :=
  match st.above with
  | [] => { st with bottom := st.bottom.insert c a }
  | m :: above => { st with above := m.insert c a :: above }

/-- What was set is found. -/
theorem lookup_set (st : Stack α) (c : Key.Class) (a : α) : (st.set c a).lookup c = some a := by
  obtain ⟨bottom, above⟩ := st
  cases above with
  | nil => simp [set, lookup]
  | cons m above =>
    rw [set, lookup, List.cons_append, List.findSome?_cons, Finmap.lookup_insert]

/-- A binding says nothing about the other classes. -/
theorem lookup_set_of_ne (st : Stack α) {c c' : Key.Class} (a : α) (other : c' ≠ c) :
    (st.set c a).lookup c' = st.lookup c' := by
  obtain ⟨bottom, above⟩ := st
  cases above with
  | nil => simp [set, lookup, Finmap.lookup_insert_of_ne _ other]
  | cons m above =>
    rw [set, lookup, lookup, List.cons_append, List.cons_append, List.findSome?_cons,
      List.findSome?_cons, Finmap.lookup_insert_of_ne _ other]

/-- The stack after an operation. The map at the bottom cannot be popped. -/
def perform? (st : Stack α) : Operation α → Option (Stack α)
  | .push => some { st with above := ∅ :: st.above }
  | .pop =>
    match st.above with
    | [] => none
    | _ :: above => some { st with above := above }
  | .unwind => some { st with above := [] }
  | .set x a => some (st.set x.toClass a)

/-- The stack after several operations, if no pop finds the bottom alone. -/
def performAll? (st : Stack α) : List (Operation α) → Option (Stack α)
  | [] => some st
  | o :: os => st.perform? o >>= fun st => st.performAll? os

end Stack

namespace Environment

variable {α : Type}

/-- The environment after an operation. -/
def perform (env : Environment α) : Operation α → Except Obstacle (Environment α)
  | .push => .ok env.push
  | .pop => env.pop
  | .unwind => .ok env.unwind
  | .set x a => env.set x.expr a

/-- The environment after several operations. -/
def performAll (env : Environment α) : List (Operation α) → Except Obstacle (Environment α)
  | [] => .ok env
  | o :: os => env.perform o >>= fun env => env.performAll os

end Environment

/-! ## Scopes -/

namespace Scope

variable {α : Type} {s : Scope α} {m : Finmap fun _ : Key.Class => α}

/-- Whether a scope stands for a finite map: its variables are keys, no two of them match, and they
are bound to what the map says. -/
structure Represents (s : Scope α) (m : Finmap fun _ : Key.Class => α) : Prop where
  keys : ∀ b ∈ s, b.1.IsWellFormed
  distinct : s.Pairwise fun b c => b.1.pattern ≠ c.1.pattern
  bound : ∀ (x : Key) (a : α),
    m.lookup x.toClass = some a ↔ ∃ y, (y, a) ∈ s ∧ y.pattern = x.expr.pattern

/-- No two variables of a scope that stands for a map match. -/
theorem Represents.pairwise (h : s.Represents m) :
    s.Pairwise fun b c => b.1.matchesWith c.1 = .ok false :=
  h.distinct.imp_of_mem fun hb hc different =>
    (Expr.decides_matchesWith (h.keys _ hb) (h.keys _ hc)).eq_false_iff.2 different

/-- A scope without bindings stands for the empty map. -/
theorem represents_nil : Represents ([] : Scope α) ∅ where
  keys := by simp
  distinct := .nil
  bound x a := by simp

/-- Searching a scope by matching finds a binding of the class, if there is one. -/
theorem firstMatch?_eq (x : Key) (keys : ∀ b ∈ s, b.1.IsWellFormed) :
    ∃ found, s.firstMatch? x.expr = .ok found ∧
      (∀ a, found = some a → ∃ y, (y, a) ∈ s ∧ y.pattern = x.expr.pattern) ∧
      (found = none → ∀ b ∈ s, b.1.pattern ≠ x.expr.pattern) := by
  induction s with
  | nil => exact ⟨none, rfl, by simp, by simp⟩
  | cons b s ih =>
    obtain ⟨y, a⟩ := b
    have test := Expr.decides_matchesWith (keys _ List.mem_cons_self) x.isWellFormed
    by_cases same : y.pattern = x.expr.pattern
    · refine ⟨some a, ?_, ?_, by simp⟩
      · rw [firstMatch?, test.eq_true_iff.2 same]
        rfl
      · rintro _ ⟨⟩
        exact ⟨y, List.mem_cons_self, same⟩
    · obtain ⟨found, later, some_case, none_case⟩ :=
        ih fun b hb => keys b (List.mem_cons_of_mem _ hb)
      refine ⟨found, ?_, ?_, ?_⟩
      · rw [firstMatch?, test.eq_false_iff.2 same]
        exact later
      · intro a h
        obtain ⟨z, mem, pattern⟩ := some_case a h
        exact ⟨z, List.mem_cons_of_mem _ mem, pattern⟩
      · intro h
        simpa [same] using none_case h

/-- Looking for the very same variable first makes no difference to that. -/
theorem lookup_eq (x : Key) (keys : ∀ b ∈ s, b.1.IsWellFormed) :
    ∃ found, s.lookup x.expr = .ok found ∧
      (∀ a, found = some a → ∃ y, (y, a) ∈ s ∧ y.pattern = x.expr.pattern) ∧
      (found = none → ∀ b ∈ s, b.1.pattern ≠ x.expr.pattern) := by
  rw [lookup]
  split
  · next y a found =>
    have same : (y == x.expr) = true :=
      List.find?_some (p := fun b : Expr × α => b.1 == x.expr) found
    refine ⟨some a, rfl, ?_, by simp⟩
    rintro _ ⟨⟩
    exact ⟨y, List.mem_of_find?_eq_some found, Expr.pattern_eq_of_same same⟩
  · exact firstMatch?_eq x keys

theorem Represents.lookup (h : s.Represents m) (x : Key) :
    s.lookup x.expr = .ok (m.lookup x.toClass) := by
  obtain ⟨found, looked, some_case, none_case⟩ := lookup_eq x h.keys
  rw [looked]
  cases found with
  | some a => rw [(h.bound x a).2 (some_case a rfl)]
  | none =>
    cases has : m.lookup x.toClass with
    | none => rfl
    | some a =>
      obtain ⟨y, mem, pattern⟩ := (h.bound x a).1 has
      exact absurd pattern (none_case rfl _ mem)

/-- Erasing a variable takes the bindings of its class away, and nothing else. -/
theorem erase_eq (x : Key) (keys : ∀ b ∈ s, b.1.IsWellFormed) :
    ∃ s', s.erase x.expr = .ok s' ∧ s'.Sublist s ∧
      ∀ b, b ∈ s' ↔ b ∈ s ∧ b.1.pattern ≠ x.expr.pattern := by
  induction s with
  | nil => exact ⟨[], rfl, .slnil, by simp⟩
  | cons b s ih =>
    obtain ⟨y, a⟩ := b
    have test := Expr.decides_matchesWith (keys _ List.mem_cons_self) x.isWellFormed
    obtain ⟨s', erased, sub, mem⟩ := ih fun b hb => keys b (List.mem_cons_of_mem _ hb)
    by_cases same : y.pattern = x.expr.pattern
    · refine ⟨s', ?_, sub.cons _, fun b => ?_⟩
      · rw [erase, test.eq_true_iff.2 same, erased]
        rfl
      · rw [mem, List.mem_cons, or_and_right, or_iff_right]
        rintro ⟨rfl, other⟩
        exact other same
    · refine ⟨(y, a) :: s', ?_, sub.cons_cons _, fun b => ?_⟩
      · rw [erase, test.eq_false_iff.2 same, erased]
        rfl
      · rw [List.mem_cons, mem, List.mem_cons, or_and_right]
        refine or_congr_left (iff_self_and.2 ?_)
        rintro rfl
        exact same

theorem Represents.set (h : s.Represents m) (x : Key) (a : α) :
    ∃ s', s.set x.expr a = .ok s' ∧ s'.Represents (m.insert x.toClass a) := by
  obtain ⟨s', erased, sub, mem⟩ := erase_eq x h.keys
  refine ⟨s' ++ [(x.expr, a)], by rw [Scope.set, erased]; rfl, ?_, ?_, ?_⟩
  · intro b hb
    rcases List.mem_append.1 hb with hb | hb
    · exact h.keys b (sub.subset hb)
    · rw [List.mem_singleton.1 hb]
      exact x.isWellFormed
  · rw [List.pairwise_append]
    refine ⟨h.distinct.sublist sub, List.pairwise_singleton _ _, fun b hb c hc => ?_⟩
    rw [List.mem_singleton.1 hc]
    exact ((mem b).1 hb).2
  · intro y c
    by_cases same : y.toClass = x.toClass
    · have pattern : y.expr.pattern = x.expr.pattern := Key.toClass_eq_iff.1 same
      rw [same, Finmap.lookup_insert, pattern]
      constructor
      · intro value
        exact ⟨x.expr, by simp [Option.some.inj value], rfl⟩
      · rintro ⟨z, hz, found⟩
        rcases List.mem_append.1 hz with hz | hz
        · exact absurd found ((mem _).1 hz).2
        · rw [(Prod.mk.inj (List.mem_singleton.1 hz)).2]
    · have pattern : x.expr.pattern ≠ y.expr.pattern := fun h => same (Key.toClass_eq_iff.2 h.symm)
      rw [Finmap.lookup_insert_of_ne _ same, h.bound]
      refine exists_congr fun z => and_congr_left fun found => ?_
      rw [List.mem_append, mem, found]
      constructor
      · exact fun hz => .inl ⟨hz, pattern.symm⟩
      · rintro (hz | hz)
        · exact hz.1
        · rw [(Prod.mk.inj (List.mem_singleton.1 hz)).1] at found
          exact absurd found pattern

end Scope

namespace Environment

variable {α : Type} {env : Environment α} {st : Stack α}

/-- Whether the scopes of an environment stand for the maps of a stack. -/
structure Refines (env : Environment α) (st : Stack α) : Prop where
  globals : env.globals.Represents st.bottom
  scopes : List.Forall₂ Scope.Represents env.scopes st.above

/-- The empty environment is the empty stack. -/
theorem refines_empty : (empty : Environment α).Refines .empty := ⟨Scope.represents_nil, .nil⟩

/-- The scopes are the maps of the stack, the global one at the bottom. -/
theorem Refines.all (h : env.Refines st) :
    List.Forall₂ Scope.Represents (env.scopes ++ [env.globals]) (st.above ++ [st.bottom]) :=
  List.rel_append h.scopes (.cons h.globals .nil)

/-- No two variables of a scope match. -/
theorem Refines.pairwise (h : env.Refines st) {s : Scope α}
    (mem : s ∈ env.scopes ++ [env.globals]) :
    s.Pairwise fun b c => b.1.matchesWith c.1 = .ok false := by
  have all : ∀ {scopes maps}, List.Forall₂ Scope.Represents scopes maps → ∀ s ∈ scopes,
      s.Pairwise fun b c : Expr × α => b.1.matchesWith c.1 = .ok false := by
    intro scopes maps related
    induction related with
    | nil => simp
    | cons first _ ih => exact List.forall_mem_cons.2 ⟨first.pairwise, ih⟩
  exact all h.all s mem

theorem Refines.lookup (h : env.Refines st) (x : Key) :
    env.lookup x.expr = .ok (st.lookup x.toClass) := by
  have all := h.all
  rw [Environment.lookup, Stack.lookup]
  revert all
  generalize env.scopes ++ [env.globals] = scopes
  generalize st.above ++ [st.bottom] = maps
  intro all
  induction all with
  | nil => rfl
  | @cons s m scopes maps first _ ih =>
    rw [lookupIn, first.lookup x, List.findSome?_cons]
    cases m.lookup x.toClass with
    | none => exact ih
    | some a => rfl

/-- **An operation does to the scopes what it does to the maps.** -/
theorem Refines.perform {st' : Stack α} (h : env.Refines st) {o : Operation α}
    (made : st.perform? o = some st') : ∃ env', env.perform o = .ok env' ∧ env'.Refines st' := by
  obtain ⟨globals, scopes⟩ := env
  obtain ⟨bottom, above⟩ := st
  cases o with
  | push =>
    cases made
    exact ⟨_, rfl, h.globals, .cons Scope.represents_nil h.scopes⟩
  | pop =>
    cases h.scopes with
    | nil => cases made
    | cons _ outer =>
      cases made
      exact ⟨_, rfl, h.globals, outer⟩
  | unwind =>
    cases made
    exact ⟨_, rfl, h.globals, .nil⟩
  | set x a =>
    cases made
    cases h.scopes with
    | nil =>
      obtain ⟨s, changed, represents⟩ := h.globals.set x a
      refine ⟨⟨s, []⟩, ?_, represents, .nil⟩
      simp only [Environment.perform, Environment.set, changed]
      rfl
    | cons first outer =>
      obtain ⟨s, changed, represents⟩ := first.set x a
      exact ⟨⟨globals, s :: _⟩, by simp only [Environment.perform, Environment.set, changed]; rfl,
        h.globals, .cons represents outer⟩

/-- Whatever the stack does the environment does, one operation after the other. -/
theorem Refines.performAll {st' : Stack α} {os : List (Operation α)} (h : env.Refines st)
    (made : st.performAll? os = some st') :
    ∃ env', env.performAll os = .ok env' ∧ env'.Refines st' := by
  induction os generalizing env st with
  | nil =>
    cases made
    exact ⟨env, rfl, h⟩
  | cons o os ih =>
    obtain ⟨st₁, first, later⟩ := Option.bind_eq_some_iff.1 made
    obtain ⟨env₁, done, refines⟩ := h.perform first
    obtain ⟨env', rest, refines'⟩ := ih refines later
    exact ⟨env', by rw [Environment.performAll, done]; exact rest, refines'⟩

/-! ## Balanced operations -/

/-- Sequences of operations that pop just the scopes that they push. -/
inductive Balanced : List (Operation α) → Prop
  | nil : Balanced []
  | set (x : Key) (a : α) {rest : List (Operation α)} (rest_ok : Balanced rest) :
    Balanced (.set x a :: rest)
  | scope {inner rest : List (Operation α)} (inner_ok : Balanced inner) (rest_ok : Balanced rest) :
    Balanced (.push :: (inner ++ .pop :: rest))

/-- Operations can be carried out in two steps. -/
theorem performAll_append (env : Environment α) (os os' : List (Operation α)) :
    env.performAll (os ++ os') = env.performAll os >>= fun env => env.performAll os' := by
  induction os generalizing env with
  | nil => rfl
  | cons o os ih =>
    rw [List.cons_append, performAll, performAll]
    cases env.perform o with
    | error fault => rfl
    | ok env' => exact ih env'

/-- What differs from a new scope in its innermost scope alone is left by a pop. -/
theorem pop_of_sameOutside_push {env' : Environment α} (h : env.push.SameOutside env') :
    env'.pop = .ok env := by
  obtain ⟨globals, scopes⟩ := env
  obtain ⟨globals', scopes'⟩ := env'
  cases scopes' with
  | nil => cases h.depth
  | cons s outer =>
    have same : outer ++ [globals'] = scopes ++ [globals] := h.outer
    obtain ⟨rfl, last⟩ := List.append_inj' same rfl
    cases last
    rfl

/-- A new scope is gone when it is popped. -/
theorem performAll_scope {env' : Environment α} {inner : List (Operation α)}
    (inside : env.push.performAll inner = .ok env') (outside : env.push.SameOutside env')
    (rest : List (Operation α)) :
    env.performAll (.push :: (inner ++ .pop :: rest)) = env.performAll rest := by
  show env.push.performAll _ = _
  rw [performAll_append, inside]
  show (env'.pop >>= _) = _
  rw [pop_of_sameOutside_push outside]
  rfl

/-- Balanced operations have a result, and change the innermost scope alone. -/
theorem Balanced.sameOutside {os : List (Operation α)} (h : Balanced os)
    (refines : env.Refines st) :
    ∃ env' st', env.performAll os = .ok env' ∧ env.SameOutside env' ∧ env'.Refines st' := by
  induction h generalizing env st with
  | nil => exact ⟨env, st, rfl, .refl env, refines⟩
  | set x a _ ih =>
    obtain ⟨env₁, changed, refines₁⟩ := refines.perform (o := .set x a) rfl
    obtain ⟨env', st', later, outside, refines'⟩ := ih refines₁
    refine ⟨env', st', ?_, (sameOutside_set changed).trans outside, refines'⟩
    rw [performAll, changed]
    exact later
  | scope _ _ ih ih' =>
    obtain ⟨_, ⟨⟩, refines₁⟩ := refines.perform (o := .push) rfl
    obtain ⟨env₂, st₂, inside, outside, -⟩ := ih refines₁
    obtain ⟨env', st', later, outside', refines'⟩ := ih' refines
    exact ⟨env', st', (performAll_scope inside outside _).trans later, outside', refines'⟩

/-- Balanced operations in a new scope leave nothing behind when it is popped. -/
theorem Balanced.popped {inner : List (Operation α)} (h : Balanced inner)
    (refines : env.Refines st) : env.performAll (.push :: (inner ++ [.pop])) = .ok env := by
  obtain ⟨_, ⟨⟩, pushed⟩ := refines.perform (o := .push) rfl
  obtain ⟨env', -, inside, outside, -⟩ := h.sameOutside pushed
  exact performAll_scope inside outside []

/-- **An environment is a stack of finite maps.** After any operations of which no pop finds the
global scope alone, no two variables of a scope match, and a variable has the value that the topmost
map with its class holds for it. A further binding changes what is found for variables that match
its own and for no other, and a new scope leaves nothing behind once the operations in it are
balanced and it is popped. -/
theorem refines_stack {os : List (Operation α)} {st : Stack α}
    (made : Stack.empty.performAll? os = some st) :
    ∃ env, Environment.empty.performAll os = .ok env ∧
      (∀ s ∈ env.scopes ++ [env.globals],
        s.Pairwise fun b c => b.1.matchesWith c.1 = .ok false) ∧
      (∀ x : Key, env.lookup x.expr = .ok (st.lookup x.toClass)) ∧
      (∀ (x : Key) (a : α), ∃ env', env.set x.expr a = .ok env' ∧
        ∀ y : Key, x.expr.matchesWith y.expr ≠ .ok true →
          env'.lookup y.expr = env.lookup y.expr) ∧
      ∀ inner, Balanced inner → env.performAll (.push :: (inner ++ [.pop])) = .ok env := by
  obtain ⟨env, done, refines⟩ := refines_empty.performAll made
  refine ⟨env, done, fun s => refines.pairwise, refines.lookup, ?_, ?_⟩
  · intro x a
    obtain ⟨env', changed, refines'⟩ := refines.perform (o := .set x a) rfl
    refine ⟨env', changed, fun y other => ?_⟩
    have different : y.toClass ≠ x.toClass := fun same =>
      other (Key.matches_iff.2 (Key.toClass_eq_iff.1 same).symm)
    rw [refines'.lookup, refines.lookup, st.lookup_set_of_ne a different]
  · exact fun inner balanced => balanced.popped refines

/-- A subscript spelled in another way names the same variable. -/
theorem refines_stack_respelled :
    ∃ env, Environment.empty.performAll
        [.set (.indexed "x" "1" rfl) 2, .push, .set (.indexed "x" "1.0" rfl) 3] = .ok env ∧
      env.lookup (.var "x" [.number "1" none] none) = .ok (some 3) := by
  let below : Stack Nat := { Stack.empty.set (Key.indexed "x" "1" rfl).toClass 2 with above := [∅] }
  have made : Stack.empty.performAll?
      [.set (.indexed "x" "1" rfl) 2, .push, .set (.indexed "x" "1.0" rfl) 3] =
        some (below.set (Key.indexed "x" "1.0" rfl).toClass 3) := rfl
  obtain ⟨env, done, -, found, -⟩ := refines_stack made
  have same : (Key.indexed "x" "1" rfl).toClass = (Key.indexed "x" "1.0" rfl).toClass :=
    Key.toClass_indexed _ _ rfl
  have value := found (.indexed "x" "1" rfl)
  rw [same, Stack.lookup_set] at value
  exact ⟨env, done, value⟩

end Environment

end TexAlgebra
