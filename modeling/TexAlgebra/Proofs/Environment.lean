import TexAlgebra.Environment
import TexAlgebra.Expr.Traversal
import TexAlgebra.Proofs.Computation
/-!
# Plain names and bindings

A variable without subscripts is known by its name alone. Looking one up never fails, and binding
one changes what is found under its name and nothing else. What is found for any variable is bound
to one of the same name (`Environment.AllBindings.of_lookup`).
-/

namespace TexAlgebra

namespace Expr

/-- The name of a variable without subscripts. -/
def name? : Expr → Option String
  | var name [] _ => some name
  | _ => none

/-- Only a variable without subscripts is a name. -/
theorem name?_eq_some {x : Expr} {name : String} :
    x.name? = some name ↔ ∃ token, x = .var name [] token := by
  constructor
  · intro h
    cases x with
    | var n subscripts token =>
      cases subscripts with
      | nil =>
        cases h
        exact ⟨token, rfl⟩
      | cons => cases h
    | _ => cases h
  · rintro ⟨token, rfl⟩
    rfl

/-- What matches a plain name is that name, and no number is compared to find out. -/
theorem matchesWith_name (e : Expr) (name : String) (token : Option Token) :
    e.matchesWith (.var name [] token) = .ok (e.name? = some name) := by
  cases e with
  | var n subscripts t =>
    cases subscripts with
    | nil =>
      by_cases h : n = name <;> simp [matchesWith, matchesAll, matchesEach, both, name?, h] <;> rfl
    | cons => by_cases h : n = name <;> simp [matchesWith, matchesAll, both, name?, h] <;> rfl
  | _ =>
    rw [matchesWith]
    · rfl
    all_goals
      intros
      simp_all

/-- An expression is equal to a name if it is that name, wherever it stands. -/
theorem beq_name (e : Expr) (name : String) (token : Option Token) :
    (e == .var name [] token) = decide (e.name? = some name) := by
  show e.same _ = _
  cases e with
  | var n subscripts t =>
    cases subscripts with
    | nil => by_cases h : n = name <;> simp [same, sameAll, name?, h]
    | cons => simp [same, sameAll, name?]
  | _ => simp [same, name?]

/-- The name of a variable, whatever its subscripts are. -/
def variableName? : Expr → Option String
  | var name _ _ => some name
  | _ => none

/-- Equal variables have one name. -/
theorem variableName?_eq_of_beq {x y : Expr} (h : (y == x) = true) :
    y.variableName? = x.variableName? := by
  have same : y.same x = true := h
  cases y with
  | var n ss t =>
    cases x with
    | var m ts u =>
      have name : n = m := by
        simp only [Expr.same, Bool.and_eq_true, beq_iff_eq] at same
        exact same.1
      rw [variableName?, variableName?, name]
    | _ => cases same
  | _ =>
    cases x with
    | var => cases same
    | _ => rfl

/-- Variables that match have one name. -/
theorem variableName?_eq_of_matchesWith {x y : Expr} (h : y.matchesWith x = .ok true) :
    y.variableName? = x.variableName? := by
  cases y with
  | var n ss t =>
    cases x with
    | var m ts u =>
      by_cases name : n = m
      · rw [variableName?, variableName?, name]
      · simp [matchesWith, both, name] at h
        cases h
    | _ =>
      simp [matchesWith] at h
      cases h
  | _ =>
    cases x with
    | var =>
      simp [matchesWith] at h
      cases h
    | _ => rfl

end Expr

variable {α : Type}

namespace Scope

/-! ## Scopes -/

/-- The value of the oldest binding of a plain name. -/
def named (s : Scope α) (name : String) : Option α :=
  (s.find? fun b => b.1.name? = some name).map (·.2)

/-- The value of the latest of several bindings of a plain name. -/
def latest (name : String) : Scope α → Option α
  | [] => none
  | (x, a) :: rest => (latest name rest).or (if x.name? = some name then some a else none)

/-- The first binding of a name counts. -/
theorem named_cons (x : Expr) (a : α) (s : Scope α) (name : String) :
    named ((x, a) :: s) name = if x.name? = some name then some a else named s name := by
  by_cases h : x.name? = some name <;> simp [named, h]

/-- No value is the latest of a name that is not bound. -/
theorem latest_eq_none_iff {bindings : Scope α} {name : String} :
    latest name bindings = none ↔ ∀ b ∈ bindings, b.1.name? ≠ some name := by
  induction bindings with
  | nil => simp [latest]
  | cons b rest ih =>
    obtain ⟨x, a⟩ := b
    by_cases h : x.name? = some name <;> simp [latest, ih, h]

/-- Of two lists the second one binds later. -/
theorem latest_append (l l' : Scope α) (name : String) :
    latest name (l ++ l') = (latest name l').or (latest name l) := by
  induction l with
  | nil => simp [latest]
  | cons b l ih =>
    obtain ⟨x, a⟩ := b
    rw [List.cons_append, latest, ih, latest, Option.or_assoc]

/-- The latest value of a name comes from a binding of the name. -/
theorem exists_of_latest {bindings : Scope α} {name : String} {a : α}
    (h : latest name bindings = some a) : ∃ x, (x, a) ∈ bindings ∧ x.name? = some name := by
  induction bindings with
  | nil => cases h
  | cons b rest ih =>
    obtain ⟨x, b⟩ := b
    rw [latest, Option.or_eq_some_iff] at h
    obtain h | ⟨-, h⟩ := h
    · obtain ⟨y, mem, named⟩ := ih h
      exact ⟨y, List.mem_cons_of_mem _ mem, named⟩
    · split at h
      · next named =>
        cases h
        exact ⟨x, List.mem_cons_self, named⟩
      · cases h

/-- A name matches its own binding and no other. -/
theorem firstMatch?_name (s : Scope α) (name : String) (token : Option Token) :
    s.firstMatch? (.var name [] token) = .ok (s.named name) := by
  induction s with
  | nil => rfl
  | cons b s ih =>
    obtain ⟨y, a⟩ := b
    rw [firstMatch?, Expr.matchesWith_name, named_cons, ih]
    by_cases h : y.name? = some name <;> simp [h] <;> rfl

/-- In a scope a name is found under its own binding. -/
theorem lookup_name (s : Scope α) (name : String) (token : Option Token) :
    s.lookup (.var name [] token) = .ok (s.named name) := by
  have key : (fun b : Expr × α => b.1 == Expr.var name [] token) =
      fun b => decide (b.1.name? = some name) := by
    funext b
    exact Expr.beq_name _ _ _
  rw [lookup, key]
  cases h : s.find? fun b => b.1.name? = some name with
  | none => exact firstMatch?_name s name token
  | some b =>
    rw [named, h]
    rfl

/-- To erase a name leaves all others. -/
theorem erase_name (s : Scope α) (name : String) (token : Option Token) :
    ∃ s', s.erase (.var name [] token) = .ok s' ∧
      ∀ m, s'.named m = if m = name then none else s.named m := by
  induction s with
  | nil => exact ⟨[], rfl, fun m => by simp [named]⟩
  | cons b s ih =>
    obtain ⟨y, a⟩ := b
    obtain ⟨s', erased, found⟩ := ih
    rw [erase, Expr.matchesWith_name, erased]
    by_cases h : y.name? = some name
    · refine ⟨s', by simp [h]; rfl, fun m => ?_⟩
      rw [found, named_cons, h]
      by_cases hm : m = name
      · simp [hm]
      · simp [hm, Ne.symm hm]
    · refine ⟨(y, a) :: s', by simp [h]; rfl, fun m => ?_⟩
      rw [named_cons, named_cons, found]
      by_cases hm : m = name
      · simp [hm, h]
      · simp [hm]

/-- To set a name leaves all others. -/
theorem set_name (s : Scope α) (name : String) (token : Option Token) (a : α) :
    ∃ s', s.set (.var name [] token) a = .ok s' ∧
      ∀ m, s'.named m = if m = name then some a else s.named m := by
  obtain ⟨s', erased, found⟩ := erase_name s name token
  refine ⟨s' ++ [(.var name [] token, a)], by rw [set, erased]; rfl, fun m => ?_⟩
  have split : named (s' ++ [(.var name [] token, a)]) m =
      (s'.named m).or (named [(.var name [] token, a)] m) := by
    simp [named, List.find?_append, Option.map_or]
  rw [split, found, named_cons]
  by_cases hm : m = name
  · simp [hm, Expr.name?]
  · simp [hm, Expr.name?, Ne.symm hm, named]

/-- What matches is bound under a variable of the same name. -/
theorem mem_of_firstMatch? {s : Scope α} {x : Expr} {a : α}
    (h : s.firstMatch? x = .ok (some a)) : ∃ y, (y, a) ∈ s ∧ y.variableName? = x.variableName? := by
  induction s with
  | nil => cases h
  | cons b s ih =>
    obtain ⟨y, b⟩ := b
    obtain ⟨found, matched, h⟩ := ok_of_bind h
    cases found with
    | true =>
      cases h
      exact ⟨y, List.mem_cons_self, Expr.variableName?_eq_of_matchesWith matched⟩
    | false =>
      obtain ⟨z, mem, name⟩ := ih h
      exact ⟨z, List.mem_cons_of_mem _ mem, name⟩

/-- What is found for a variable is bound to a variable of the same name. -/
theorem mem_of_lookup {s : Scope α} {x : Expr} {a : α} (h : s.lookup x = .ok (some a)) :
    ∃ y, (y, a) ∈ s ∧ y.variableName? = x.variableName? := by
  rw [lookup] at h
  split at h
  · next y b found =>
    cases h
    have same : (y == x) = true :=
      List.find?_some (p := fun b : Expr × α => b.1 == x) found
    exact ⟨y, List.mem_of_find?_eq_some found, Expr.variableName?_eq_of_beq same⟩
  · exact mem_of_firstMatch? h

/-- To erase a variable adds nothing. -/
theorem mem_of_erase {s s' : Scope α} {x : Expr} (h : s.erase x = .ok s') {b : Expr × α}
    (mem : b ∈ s') : b ∈ s := by
  induction s generalizing s' with
  | nil =>
    cases h
    cases mem
  | cons c s ih =>
    obtain ⟨found, -, h⟩ := ok_of_bind h
    obtain ⟨rest, erased, h⟩ := ok_of_bind h
    cases found with
    | true =>
      cases h
      exact List.mem_cons_of_mem _ (ih erased mem)
    | false =>
      cases h
      rcases List.mem_cons.1 mem with rfl | mem
      · exact List.mem_cons_self
      · exact List.mem_cons_of_mem _ (ih erased mem)

/-- To set a variable adds its binding alone. -/
theorem mem_of_set {s s' : Scope α} {x : Expr} {a : α} (h : s.set x a = .ok s') {b : Expr × α}
    (mem : b ∈ s') : b ∈ s ∨ b = (x, a) := by
  obtain ⟨rest, erased, h⟩ := ok_of_bind h
  cases h
  rcases List.mem_append.1 mem with mem | mem
  · exact .inl (mem_of_erase erased mem)
  · exact .inr (List.mem_singleton.1 mem)

end Scope

namespace Environment

/-! ## Environments -/

/-- The value of a plain name. -/
def named (env : Environment α) (name : String) : Option α :=
  (env.scopes ++ [env.globals]).findSome? (·.named name)

/-- A name is found with the value that the innermost scope gives it. -/
theorem lookup_name (env : Environment α) (name : String) (token : Option Token) :
    env.lookup (.var name [] token) = .ok (env.named name) := by
  rw [lookup, named]
  induction env.scopes ++ [env.globals] with
  | nil => rfl
  | cons s outer ih =>
    rw [lookupIn, Scope.lookup_name, List.findSome?_cons]
    cases h : s.named name with
    | none => exact ih
    | some a => rfl

/-- To set a name leaves all others. -/
theorem set_name (env : Environment α) (name : String) (token : Option Token) (a : α) :
    ∃ env', env.set (.var name [] token) a = .ok env' ∧
      ∀ m, env'.named m = if m = name then some a else env.named m := by
  obtain ⟨globals, scopes⟩ := env
  cases scopes with
  | nil =>
    obtain ⟨s', changed, found⟩ := Scope.set_name globals name token a
    refine ⟨⟨s', []⟩, by simp only [set, changed]; rfl, fun m => ?_⟩
    simp only [named, List.nil_append, List.findSome?_cons, List.findSome?_nil, found]
    by_cases hm : m = name <;> simp [hm]
  | cons s outer =>
    obtain ⟨s', changed, found⟩ := Scope.set_name s name token a
    refine ⟨⟨globals, s' :: outer⟩, by simp only [set, changed]; rfl, fun m => ?_⟩
    simp only [named, List.cons_append, List.findSome?_cons, found]
    by_cases hm : m = name <;> simp [hm]

/-- After several plain names were bound one after the other, each has the value of its latest
binding, and any other name has the value that it had. -/
theorem setAll_names (env : Environment α) (bindings : Scope α)
    (plain : ∀ b ∈ bindings, b.1.name?.isSome) :
    ∃ env', env.setAll bindings = .ok env' ∧
      ∀ m, env'.named m = (Scope.latest m bindings).or (env.named m) := by
  induction bindings generalizing env with
  | nil => exact ⟨env, rfl, fun m => rfl⟩
  | cons b bindings ih =>
    obtain ⟨x, a⟩ := b
    obtain ⟨name, hx⟩ := Option.isSome_iff_exists.1 (plain _ List.mem_cons_self)
    obtain ⟨token, rfl⟩ := Expr.name?_eq_some.1 hx
    obtain ⟨env₁, changed, found₁⟩ := env.set_name name token a
    obtain ⟨env₂, later, found₂⟩ := ih env₁ fun b hb => plain b (List.mem_cons_of_mem _ hb)
    refine ⟨env₂, by rw [setAll, changed]; exact later, fun m => ?_⟩
    rw [found₂, found₁, Scope.latest, Option.or_assoc, hx]
    by_cases hm : m = name
    · simp [hm]
    · simp [hm, Ne.symm hm]

/-! ## Bound values -/

/-- Whether every binding in one of the scopes has a property. -/
def AllBindings (P : Expr → α → Prop) (env : Environment α) : Prop :=
  ∀ s ∈ env.scopes ++ [env.globals], ∀ b ∈ s, P b.1 b.2

/-- Whether every value that is bound in one of the scopes has a property. -/
def AllValues (P : α → Prop) (env : Environment α) : Prop :=
  ∀ s ∈ env.scopes ++ [env.globals], ∀ b ∈ s, P b.2

section

variable {P : Expr → α → Prop} {env env' : Environment α} {x : Expr} {a : α}

/-- What follows from a property of all bindings holds of all bindings. -/
theorem AllBindings.mono {Q : Expr → α → Prop} (h : env.AllBindings P)
    (imp : ∀ x a, P x a → Q x a) : env.AllBindings Q :=
  fun s hs b hb => imp _ _ (h s hs b hb)

/-- Where nothing is bound, every property holds of all bindings. -/
theorem allBindings_empty : (empty : Environment α).AllBindings P := by
  intro s hs b hb
  obtain rfl := List.mem_singleton.1 hs
  cases hb

/-- Fewer scopes have fewer bindings. -/
theorem AllBindings.unwind (h : env.AllBindings P) : env.unwind.AllBindings P := by
  intro s hs
  obtain rfl := List.mem_singleton.1 hs
  exact h _ (List.mem_append_right _ (List.mem_singleton_self _))

/-- A new scope has no bindings. -/
theorem AllBindings.push (h : env.AllBindings P) : env.push.AllBindings P := by
  intro s hs
  rcases List.mem_cons.1 hs with rfl | hs
  · simp
  · exact h s hs

/-- To leave a scope takes bindings away. -/
theorem AllBindings.leave (h : env.AllBindings P) : env.leave.AllBindings P := by
  intro s hs
  refine h s ?_
  rcases List.mem_append.1 hs with hs | hs
  · exact List.mem_append_left _ (List.mem_of_mem_drop hs)
  · exact List.mem_append_right _ hs

/-- To set a variable adds a binding of it. -/
theorem AllBindings.set (h : env.AllBindings P) (ha : P x a) (changed : env.set x a = .ok env') :
    env'.AllBindings P := by
  obtain ⟨globals, scopes⟩ := env
  cases scopes with
  | nil =>
    obtain ⟨s', made, result⟩ := ok_of_bind changed
    cases ok_of_pure result
    intro s hs b hb
    obtain rfl := List.mem_singleton.1 hs
    rcases Scope.mem_of_set made hb with hb | rfl
    · exact h globals (List.mem_singleton_self _) b hb
    · exact ha
  | cons s₀ outer =>
    obtain ⟨s', made, result⟩ := ok_of_bind changed
    cases ok_of_pure result
    intro s hs b hb
    rcases List.mem_cons.1 hs with rfl | hs
    · rcases Scope.mem_of_set made hb with hb | rfl
      · exact h s₀ List.mem_cons_self b hb
      · exact ha
    · exact h s (List.mem_cons_of_mem _ hs) b hb

/-- To set several variables adds bindings of them. -/
theorem AllBindings.setAll {bindings : Scope α} (h : env.AllBindings P)
    (all : ∀ b ∈ bindings, P b.1 b.2) (changed : env.setAll bindings = .ok env') :
    env'.AllBindings P := by
  induction bindings generalizing env with
  | nil =>
    cases changed
    exact h
  | cons b bindings ih =>
    obtain ⟨y, a⟩ := b
    obtain ⟨env₁, first, later⟩ := ok_of_bind changed
    exact ih (h.set (all _ List.mem_cons_self) first)
      (fun b hb => all b (List.mem_cons_of_mem _ hb)) later

/-- What is found has the property, under a variable of the same name. -/
theorem AllBindings.of_lookup (h : env.AllBindings P) (found : env.lookup x = .ok (some a)) :
    ∃ y, y.variableName? = x.variableName? ∧ P y a := by
  rw [lookup] at found
  rw [AllBindings] at h
  revert h found
  induction env.scopes ++ [env.globals] with
  | nil =>
    intro h found
    cases found
  | cons s outer ih =>
    intro h found
    obtain ⟨value, looked, found⟩ := ok_of_bind found
    cases value with
    | none => exact ih (fun s hs => h s (List.mem_cons_of_mem _ hs)) found
    | some b =>
      cases found
      obtain ⟨y, mem, name⟩ := Scope.mem_of_lookup looked
      exact ⟨y, name, h s List.mem_cons_self _ mem⟩

end

variable {P : α → Prop} {env env' : Environment α} {x : Expr} {a : α}

/-- A new scope has no values. -/
theorem AllValues.push (h : env.AllValues P) : env.push.AllValues P :=
  AllBindings.push (P := fun _ => P) h

/-- To leave a scope takes values away. -/
theorem AllValues.leave (h : env.AllValues P) : env.leave.AllValues P :=
  AllBindings.leave (P := fun _ => P) h

/-- To set a variable adds one value. -/
theorem AllValues.set (h : env.AllValues P) (ha : P a) (changed : env.set x a = .ok env') :
    env'.AllValues P :=
  AllBindings.set (P := fun _ => P) h ha changed

/-- To set several variables adds their values. -/
theorem AllValues.setAll {bindings : Scope α} (h : env.AllValues P) (all : ∀ b ∈ bindings, P b.2)
    (changed : env.setAll bindings = .ok env') : env'.AllValues P :=
  AllBindings.setAll (P := fun _ => P) h all changed

/-- What is found has the property. -/
theorem AllValues.of_lookup (h : env.AllValues P) (found : env.lookup x = .ok (some a)) : P a := by
  obtain ⟨-, -, property⟩ := AllBindings.of_lookup (P := fun _ => P) h found
  exact property

end Environment

/-! ## Substitutions -/

namespace Expr

/-- A name is replaced by its latest value. -/
theorem lastBound?_name (bindings : List (Expr × Expr)) (name : String) (token : Option Token) :
    lastBound? bindings (.var name [] token) = Scope.latest name bindings := by
  rw [lastBound?]
  induction bindings with
  | nil => rfl
  | cons b bindings ih =>
    obtain ⟨x, a⟩ := b
    rw [Scope.latest, ← ih, List.reverse_cons, List.find?_append, Option.map_or]
    by_cases h : x.name? = some name <;> simp [beq_name, h]

end Expr

end TexAlgebra
