import TexAlgebra.Proofs.Evaluation.Settled
/-!
# Renamed parameters

When a function is supplied with some of its arguments, a remaining parameter that occurs in one of
them gets a fresh name. `Renaming` says how, and `Evaluation.freshParameters_spec` that this is what
a partial application does. A fresh name differs from every name that was used before, so the
renamed parameters are still distinct, and a name that was used before stands for the same thing
after the renaming (`Evaluation.Renaming.latest`).
-/

namespace TexAlgebra.Evaluation

open Expr

/-! ## Fresh names -/

/-- Fresh names with different numbers are different. -/
theorem anon_injective {i j : Nat} (h : "anon" ++ i.repr = "anon" ++ j.repr) : i = j := by
  have same : i.repr.toList = j.repr.toList := by
    simpa using congrArg String.toList h
  rw [← Decimal.ofDigits_repr i, ← Decimal.ofDigits_repr j, same]

/-- A name that was used before the counter reached `n` differs from every later fresh name. -/
theorem ne_anon_of_isUsed {n i : Nat} {name : String} (h : IsUsed n name) (le : n ≤ i) :
    name ≠ "anon" ++ i.repr := by
  rintro rfl
  obtain ⟨-, letters⟩ | ⟨j, lt, eq⟩ := h
  · have digits : 0 < i.repr.toList.length := by
      rw [String.length_toList]
      exact Nat.length_repr_pos
    obtain ⟨c, hc⟩ := List.exists_mem_of_length_pos digits
    have letter := letters c (by rw [String.toList_append]; exact List.mem_append_right _ hc)
    rw [Lexer.isLetter_eq_false_of_isDigit (Decimal.isLatinDigit_of_mem_repr hc)] at letter
    cases letter
  · have := anon_injective eq
    omega

/-! ## Renamed parameters -/

/-- How the remaining parameters of a function are renamed when `arguments` are supplied and the
counter of fresh names goes from one number to another: a parameter that occurs in the arguments
gets the next fresh name, and any other one is kept. The parameters were used before `n`. -/
inductive Renaming (n : Nat) (arguments : List Expr) :
    Nat → List (Expr × Option Expr) → Nat → Prop
  | nil {lo : Nat} : Renaming n arguments lo [] lo
  | keep {lo hi : Nat} {name : String} {token : Option Token}
      {remaining : List (Expr × Option Expr)} (used : IsUsed n name)
      (absent : ∀ a ∈ arguments, name ∉ a.names) (later : Renaming n arguments lo remaining hi) :
    Renaming n arguments lo ((.var name [] token, none) :: remaining) hi
  | rename {lo hi : Nat} {name : String} {token : Option Token}
      {remaining : List (Expr × Option Expr)} (used : IsUsed n name)
      (later : Renaming n arguments (lo + 1) remaining hi) :
    Renaming n arguments lo
      ((.var name [] token, some (anonymousName lo token)) :: remaining) hi

/-- The substitution that renames parameters. -/
def renamings (remaining : List (Expr × Option Expr)) : List (Expr × Expr) :=
  remaining.filterMap fun (p, q) => q.map (p, ·)

/-- The parameters under their new names. -/
def renamedParameters (remaining : List (Expr × Option Expr)) : List Expr :=
  remaining.map fun (p, q) => q.getD p

variable {n lo hi : Nat} {arguments : List Expr} {remaining : List (Expr × Option Expr)}

/-- Renaming makes names upwards. -/
theorem Renaming.le (h : Renaming n arguments lo remaining hi) : lo ≤ hi := by
  induction h with
  | nil => exact le_rfl
  | keep _ _ _ ih => exact ih
  | rename _ _ ih => omega

/-- For arguments that are formulas every parameter is kept or gets a new name, and only the counter
changes. -/
theorem freshParameters_spec {s : Evaluator} {parameters : List Expr}
    (formulas : ∀ a ∈ arguments, IsFormula n a)
    (plain : ∀ p ∈ parameters, ∃ name, p.name? = some name ∧ IsUsed n name) :
    ∃ remaining hi, freshParameters arguments parameters s =
        (.ok remaining, { s with anonymous := hi }) ∧
      Renaming n arguments s.anonymous remaining hi ∧ remaining.map (·.1) = parameters := by
  induction parameters generalizing s with
  | nil => exact ⟨[], s.anonymous, rfl, .nil, rfl⟩
  | cons p ps ih =>
    obtain ⟨name, hp, used⟩ := plain p List.mem_cons_self
    obtain ⟨token, rfl⟩ := name?_eq_some.1 hp
    have occurs := occursInAny_eq fun a ha => (formulas a ha).occursIn_name name token
    have later := fun q hq => plain q (List.mem_cons_of_mem _ hq)
    -- a parameter is renamed if an argument mentions it
    by_cases found : ∃ a ∈ arguments, name ∈ a.names
    · obtain ⟨remaining, hi, rest, renamed, params⟩ :=
        @ih { s with anonymous := s.anonymous + 1 } later
      refine ⟨(.var name [] token, some (anonymousName s.anonymous token)) :: remaining, hi, ?_,
        .rename used renamed, by rw [List.map_cons, params]⟩
      rw [freshParameters, occurs, decide_eq_true found]
      show (freshParameters arguments ps >>= fun rest => pure (_ :: rest) : Eval _)
        { s with anonymous := s.anonymous + 1 } = _
      rw [bind_of_ok rest]
      rfl
    · obtain ⟨remaining, hi, rest, renamed, params⟩ := @ih s later
      refine ⟨(.var name [] token, none) :: remaining, hi, ?_,
        .keep used (by simpa using found) renamed, by rw [List.map_cons, params]⟩
      rw [freshParameters, occurs, decide_eq_false found]
      show (freshParameters arguments ps >>= fun rest => pure (_ :: rest) : Eval _) s = _
      rw [bind_of_ok rest]
      rfl

/-- A parameter under its new name is either kept, and then it occurs in no argument, or fresh. -/
theorem Renaming.of_mem (h : Renaming n arguments lo remaining hi) {q : Expr}
    (mem : q ∈ renamedParameters remaining) :
    ∃ name, q.name? = some name ∧
      (((∃ b ∈ remaining, b.1.name? = some name) ∧ IsUsed n name ∧
          ∀ a ∈ arguments, name ∉ a.names) ∨
        ∃ i, lo ≤ i ∧ i < hi ∧ name = "anon" ++ i.repr) := by
  induction h with
  | nil => cases mem
  | @keep lo hi name token remaining used absent later ih =>
    rcases List.mem_cons.1 mem with rfl | mem
    · exact ⟨name, rfl, .inl ⟨⟨_, List.mem_cons_self, rfl⟩, used, absent⟩⟩
    · obtain ⟨m, hq, ⟨⟨b, hb, old⟩, rest⟩ | fresh⟩ := ih mem
      · exact ⟨m, hq, .inl ⟨⟨b, List.mem_cons_of_mem _ hb, old⟩, rest⟩⟩
      · exact ⟨m, hq, .inr fresh⟩
  | @rename lo hi name token remaining used later ih =>
    rcases List.mem_cons.1 mem with rfl | mem
    · exact ⟨_, rfl, .inr ⟨lo, le_rfl, later.le, rfl⟩⟩
    · obtain ⟨m, hq, ⟨⟨b, hb, old⟩, rest⟩ | ⟨i, le, lt, eq⟩⟩ := ih mem
      · exact ⟨m, hq, .inl ⟨⟨b, List.mem_cons_of_mem _ hb, old⟩, rest⟩⟩
      · exact ⟨m, hq, .inr ⟨i, by omega, lt, eq⟩⟩

/-- No parameter gets the fresh name with a number below those that were given out. -/
theorem Renaming.ne_anon (h : Renaming n arguments lo remaining hi) {i : Nat} (le : n ≤ i)
    (lt : i < lo) {q : Expr} (mem : q ∈ renamedParameters remaining) :
    q.name? ≠ some ("anon" ++ i.repr) := by
  obtain ⟨name, hq, ⟨-, used, -⟩ | ⟨j, ge, -, rfl⟩⟩ := h.of_mem mem
  · rw [hq]
    exact fun eq => ne_anon_of_isUsed used le (Option.some.inj eq)
  · rw [hq]
    intro eq
    have := anon_injective (Option.some.inj eq)
    omega

/-- The parameters that are left have different names if they had before. -/
theorem Renaming.nodup (h : Renaming n arguments lo remaining hi) (le : n ≤ lo)
    (distinct : (remaining.map (·.1.name?)).Nodup) :
    ((renamedParameters remaining).map name?).Nodup := by
  induction h with
  | nil => exact .nil
  | @keep lo hi name token remaining used absent later ih =>
    rw [List.map_cons, List.nodup_cons] at distinct
    obtain ⟨first, others⟩ := distinct
    refine List.nodup_cons.2 ⟨fun mem => ?_, ih le others⟩
    obtain ⟨q, hq, same⟩ := List.mem_map.1 mem
    obtain ⟨m, hm, ⟨⟨b, hb, old⟩, -⟩ | ⟨i, ge, -, rfl⟩⟩ := later.of_mem hq
    · exact first (List.mem_map.2 ⟨b, hb, old.trans (hm.symm.trans same)⟩)
    · exact ne_anon_of_isUsed used (le.trans ge) (Option.some.inj (same.symm.trans hm))
  | @rename lo hi name token remaining used later ih =>
    refine List.nodup_cons.2 ⟨fun mem => ?_, ih (by omega) (List.nodup_cons.1 distinct).2⟩
    obtain ⟨q, hq, same⟩ := List.mem_map.1 mem
    exact later.ne_anon le (Nat.lt_succ_self lo) hq same

/-- A name that was used before stands for the same thing whether it is looked up among the
parameters, or renamed first and then looked up among the renamed parameters. -/
theorem Renaming.latest (h : Renaming n arguments lo remaining hi) (le : n ≤ lo)
    (distinct : (remaining.map (·.1.name?)).Nodup) {values : List Expr}
    (count : values.length = remaining.length) {m : String} (used : IsUsed n m) :
    match Scope.latest m ((remaining.map (·.1)).zip values) with
    | some v =>
      (Scope.latest m (renamings remaining) = none ∧
          Scope.latest m ((renamedParameters remaining).zip values) = some v) ∨
        ∃ i token, Scope.latest m (renamings remaining) = some (anonymousName i token) ∧
          Scope.latest ("anon" ++ i.repr) ((renamedParameters remaining).zip values) = some v
    | none =>
      Scope.latest m (renamings remaining) = none ∧
        Scope.latest m ((renamedParameters remaining).zip values) = none := by
  induction h generalizing values with
  | nil => exact ⟨rfl, rfl⟩
  | @keep lo hi name token remaining used' absent later ih =>
    obtain _ | ⟨v, values⟩ := values
    · cases count
    have ih := ih le (List.nodup_cons.1 distinct).2 (Nat.succ.inj count)
    have params : renamedParameters ((Expr.var name [] token, none) :: remaining) =
      .var name [] token :: renamedParameters remaining := rfl
    have same : renamings ((Expr.var name [] token, none) :: remaining) = renamings remaining := rfl
    rw [params, same]
    simp only [List.map_cons, List.zip_cons_cons, Scope.latest]
    cases found : Scope.latest m ((remaining.map (·.1)).zip values) with
    | some w =>
      rw [found] at ih
      obtain ⟨kept, value⟩ | ⟨i, t, fresh, value⟩ := ih
      · exact .inl ⟨kept, by rw [value]; rfl⟩
      · exact .inr ⟨i, t, fresh, by rw [value]; rfl⟩
    | none =>
      rw [found] at ih
      obtain ⟨kept, none⟩ := ih
      rw [none]
      -- no later parameter has the name, so the first one may be the one that is looked up
      by_cases eq : name = m
      · simp [name?, eq, kept]
      · simp [name?, eq, kept]
  | @rename lo hi name token remaining used' later ih =>
    obtain _ | ⟨v, values⟩ := values
    · cases count
    obtain ⟨first, others⟩ := List.nodup_cons.1 distinct
    have ih := ih (by omega) others (Nat.succ.inj count)
    have params : renamedParameters ((Expr.var name [] token, some (anonymousName lo token)) ::
      remaining) = anonymousName lo token :: renamedParameters remaining := rfl
    have more : renamings ((Expr.var name [] token, some (anonymousName lo token)) :: remaining) =
      (.var name [] token, anonymousName lo token) :: renamings remaining := rfl
    rw [params, more]
    simp only [List.map_cons, List.zip_cons_cons, Scope.latest]
    cases found : Scope.latest m ((remaining.map (·.1)).zip values) with
    | some w =>
      rw [found] at ih
      obtain ⟨kept, value⟩ | ⟨i, t, fresh, value⟩ := ih
      · -- a later parameter has the name, and the parameters differ
        have other : name ≠ m := by
          rintro rfl
          obtain ⟨b, hb, eq⟩ := Scope.exists_of_latest found
          obtain ⟨c, hc, eq'⟩ := List.mem_map.1 (List.of_mem_zip hb).1
          exact first (List.mem_map.2 ⟨c, hc, by rw [eq', eq]; rfl⟩)
        exact .inl ⟨by simp [kept, name?, other], by rw [value]; rfl⟩
      · exact .inr ⟨i, t, by rw [fresh]; rfl, by rw [value]; rfl⟩
    | none =>
      rw [found] at ih
      obtain ⟨kept, none⟩ := ih
      have fresh : m ≠ "anon" ++ lo.repr := ne_anon_of_isUsed used le
      by_cases eq : name = m
      · have unused : Scope.latest ("anon" ++ lo.repr) ((renamedParameters remaining).zip values) =
            .none :=
          Scope.latest_eq_none_iff.2 fun b hb =>
            later.ne_anon le (Nat.lt_succ_self lo) (List.of_mem_zip hb).1
        rw [eq]
        simp only [name?, if_true, Option.none_or]
        exact .inr ⟨lo, token, by rw [kept]; rfl, by rw [unused]; simp [anonymousName]⟩
      · simp [name?, eq, kept, none, anonymousName, Ne.symm fresh]

/-- Each new name has a number in between. -/
theorem Renaming.of_mem_renamings (h : Renaming n arguments lo remaining hi) {b : Expr × Expr}
    (mem : b ∈ renamings remaining) :
    ∃ i token, b.2 = anonymousName i token ∧ lo ≤ i ∧ i < hi := by
  induction h with
  | nil => cases mem
  | keep _ _ _ ih => exact ih mem
  | @rename lo hi name token remaining used later ih =>
    rcases List.mem_cons.1 mem with rfl | mem
    · exact ⟨lo, token, rfl, le_rfl, later.le⟩
    · obtain ⟨i, u, eq, le, lt⟩ := ih mem
      exact ⟨i, u, eq, by omega, lt⟩

/-- The parameters that are left are names that were used before or made in between. -/
theorem Renaming.isFormula_parameters (h : Renaming n arguments lo remaining hi) (le : n ≤ lo) :
    ∀ q ∈ renamedParameters remaining, ∃ name, q.name? = some name ∧ IsUsed hi name := by
  intro q hq
  obtain ⟨name, named, ⟨-, used, -⟩ | ⟨i, -, lt, eq⟩⟩ := h.of_mem hq
  · exact ⟨name, named, used.mono (le.trans h.le)⟩
  · exact ⟨name, named, .inr ⟨i, lt, eq⟩⟩

/-- A name in the supplied arguments is not the name of a renamed parameter. -/
theorem Renaming.latest_of_mem_names (h : Renaming n arguments lo remaining hi) (le : n ≤ lo)
    (formulas : ∀ a ∈ arguments, IsFormula n a) {a : Expr} (ha : a ∈ arguments) {m : String}
    (hm : m ∈ a.names) (values : List Expr) :
    Scope.latest m ((renamedParameters remaining).zip values) = none := by
  refine Scope.latest_eq_none_iff.2 fun b hb => ?_
  obtain ⟨name, named, ⟨-, -, absent⟩ | ⟨i, ge, -, rfl⟩⟩ := h.of_mem (List.of_mem_zip hb).1
  · rw [named]
    rintro ⟨⟩
    exact absent a ha hm
  · rw [named]
    intro eq
    exact ne_anon_of_isUsed ((formulas a ha).isUsed_of_mem_names hm) (le.trans ge)
      (Option.some.inj eq).symm

end TexAlgebra.Evaluation
