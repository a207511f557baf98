import TexAlgebra.Proofs.Evaluation.Closures
import TexAlgebra.Proofs.Evaluation.Trail
import TexAlgebra.Proofs.Variables
/-!
# Fresh names

A fresh name has a number, and the fresh names that an expression mentions are older than the
counter when the expression was made (`Expr.IsBefore`). A fresh name from then on neither occurs in
the expression nor matches a variable of it. So the parameters that a partial application leaves do
not occur in the arguments that were supplied, whether they were kept or renamed
(`Application.IsKnown.occursIn_eq_false`), and they differ from one another if those of the function
did (`Application.IsKnown.pairwise_differ`).
-/

namespace TexAlgebra

namespace Expr

open Evaluation

/-! ## Variables before a number -/

/-- Whether a variable is not a fresh name with the number `n` or a greater one. -/
def IsOlder (n : Nat) (x : Expr) : Prop := ∀ i, x.variableName? = some ("anon" ++ i.repr) → i < n

/-- Whether all fresh names that an expression mentions have numbers below `n`. -/
abbrev IsBefore (n : Nat) (e : Expr) : Prop := e.AllVariables (IsOlder n)

/-- Whether two expressions do not match, whichever of them comes first. -/
def Differ (x y : Expr) : Prop := x.matchesWith y = .ok false ∧ y.matchesWith x = .ok false

variable {n m i : Nat} {e : Expr} {token : Option Token}

/-- A variable that is older than a number is older than all later ones. -/
theorem IsOlder.mono {x : Expr} (h : x.IsOlder n) (le : n ≤ m) : x.IsOlder m :=
  fun i named => (h i named).trans_le le

/-- What has only names from before a number has only names from before any later one. -/
theorem IsBefore.mono (h : e.IsBefore n) (le : n ≤ m) : e.IsBefore m :=
  AllVariables.mono h fun _ old => old.mono le

/-- A name that was made earlier is from before. -/
theorem isBefore_anonymousName (lt : i < n) : (anonymousName i token).IsBefore n := by
  refine .var (fun j named => ?_) fun _ h => (List.not_mem_nil h).elim
  rwa [← anon_injective (Option.some.inj named)]

/-- A run of letters is not a fresh name. -/
theorem isOlder_of_isName {name : String} {subscripts : List Expr} (h : IsName name) :
    (var name subscripts token).IsOlder 0 := fun _ named =>
  (ne_anon_of_isUsed (.inl h) (Nat.zero_le _) (Option.some.inj named)).elim

/-- That two variables have different names does not depend on their order. -/
theorem Differ.symm {x y : Expr} (h : Differ x y) : Differ y x := ⟨h.2, h.1⟩

/-- A name that is made later differs from all that are there. -/
theorem IsBefore.differ_anonymousName (h : e.IsBefore n) (le : n ≤ i) :
    Differ e (anonymousName i token) := by
  have other : e.variableName? ≠ some ("anon" ++ i.repr) := by
    intro named
    cases h with
    | var old _ => exact absurd (old i named) (Nat.not_lt.2 le)
    | _ => cases named
  constructor
  · rw [anonymousName, matchesWith_name]
    refine congrArg Except.ok (decide_eq_false fun same => other ?_)
    obtain ⟨t, rfl⟩ := name?_eq_some.1 same
    rfl
  · cases e with
    | var name subscripts t =>
      have apart : ("anon" ++ i.repr == name) = false :=
        beq_eq_false_iff_ne.2 fun same => other (congrArg some same.symm)
      rw [anonymousName, matchesWith, apart]
      rfl
    | _ =>
      simp only [anonymousName, matchesWith]
      rfl

/-! ## Occurrences -/

/-- A variable occurs in none of some expressions if it occurs in no single one. -/
theorem occursInAny_eq_false_iff {x : Expr} {es : List Expr} :
    x.occursInAny es = .ok false ↔ ∀ e ∈ es, x.occursIn e = .ok false := by
  refine ⟨occursInAny_eq_false, fun all => ?_⟩
  induction es with
  | nil => rfl
  | cons e es ih =>
    obtain ⟨first, others⟩ := List.forall_mem_cons.1 all
    rw [occursInAny, first, ih others]
    rfl

/-- A fresh name does not occur in what was there before. -/
theorem IsBefore.occursIn_anonymousName (h : e.IsBefore n) (le : n ≤ i) :
    (anonymousName i token).occursIn e = .ok false := by
  -- at the root it does not match, so only the parts are left
  have apart : ∀ {e : Expr}, e.IsBefore n → e.matchesWith (anonymousName i token) = .ok false :=
    fun he => (he.differ_anonymousName le).1
  induction h with
  | number =>
    rw [occursIn, apart .number]
    rfl
  | var itself all absent =>
    rw [occursIn, apart (.var itself all)]
    exact occursInAny_eq_false_iff.2 absent
  | unary inner absent =>
    rw [occursIn, apart (.unary inner)]
    exact absent
  | binary left right absent absent' =>
    rw [occursIn, apart (.binary left right)]
    show either _ _ = _
    rw [absent, absent']
    rfl
  | group all absent =>
    rw [occursIn, apart (.group all)]
    exact occursInAny_eq_false_iff.2 absent
  | command all absent =>
    rw [occursIn, apart (.command all)]
    exact occursInAny_eq_false_iff.2 absent
  | block all absent =>
    rw [occursIn, apart (.block all)]
    exact occursInAny_eq_false_iff.2 absent
  | prototype named all _ absent =>
    rw [occursIn, apart (.prototype named all)]
    exact occursInAny_eq_false_iff.2 absent
  | function named all inner supplied values _ absent absent' =>
    rw [occursIn, apart (.function named all inner supplied values)]
    show either _ (either _ _) = _
    rw [apart (.prototype named all), occursInAny_eq_false_iff.2 absent, absent']
    rfl
  | call called all absent absent' =>
    rw [occursIn, apart (.call called all)]
    show either _ _ = _
    rw [absent, occursInAny_eq_false_iff.2 absent']
    rfl
  | binding bound inner absent absent' =>
    rw [occursIn, apart (.binding bound inner)]
    show either _ _ = _
    rw [absent, absent']
    rfl

end Expr

/-- Whether all fresh names that a function mentions have numbers below `n`. -/
abbrev Function.IsBefore (n : Nat) (f : Function) : Prop := f.AllVariables (Expr.IsOlder n)

/-- A function that has only names from before a number has only names from before any later one. -/
theorem Function.IsBefore.mono {n m : Nat} {f : Function} (h : f.IsBefore n) (le : n ≤ m) :
    f.IsBefore m :=
  Function.allVariables_toExpr.1 (Expr.IsBefore.mono (Function.allVariables_toExpr.2 h) le)

namespace Evaluation

open TexAlgebra.Expr

/-! ## Counting -/

/-- Whether some variables are the fresh names with the numbers from `lo` up to `hi`, in order. -/
inductive Counts : Nat → List Expr → Nat → Prop
  | nil {lo : Nat} : Counts lo [] lo
  | cons {lo hi : Nat} {token : Option Token} {names : List Expr}
      (later : Counts (lo + 1) names hi) : Counts lo (anonymousName lo token :: names) hi

section

variable {lo mid hi : Nat} {names names' : List Expr}

/-- Counting goes upwards. -/
theorem Counts.le (h : Counts lo names hi) : lo ≤ hi := by
  induction h with
  | nil => exact le_rfl
  | cons _ ih => exact (Nat.le_succ _).trans ih

/-- Names that are counted on from where others end are counted together with them. -/
theorem Counts.append (h : Counts lo names mid) (h' : Counts mid names' hi) :
    Counts lo (names ++ names') hi := by
  induction h with
  | nil => exact h'
  | cons _ ih => exact .cons (ih h')

/-- The counted names are `anon` with the numbers in between, each of them once and in order. -/
theorem Counts.variableNames (h : Counts lo names hi) :
    names.map variableName? = (List.range' lo (hi - lo)).map fun i => some ("anon" ++ i.repr) := by
  induction h with
  | nil => rw [Nat.sub_self, List.range'_zero, List.map_nil, List.map_nil]
  | @cons lo hi token names later ih =>
    have more : hi - lo = (hi - (lo + 1)) + 1 := by
      have := later.le
      omega
    rw [List.map_cons, ih, more, List.range'_succ, List.map_cons]
    rfl

/-- A variable that is counted has a fresh name. -/
theorem Counts.of_mem (h : Counts lo names hi) {x : Expr} (mem : x ∈ names) :
    ∃ i token, x = anonymousName i token ∧ lo ≤ i ∧ i < hi := by
  induction h with
  | nil => cases mem
  | @cons lo hi token names later ih =>
    rcases List.mem_cons.1 mem with rfl | mem
    · exact ⟨lo, token, rfl, le_rfl, later.le⟩
    · obtain ⟨i, u, eq, le, lt⟩ := ih mem
      exact ⟨i, u, eq, by omega, lt⟩

/-- Counted variables have names that are pairwise distinct. -/
theorem Counts.pairwise (h : Counts lo names hi) :
    names.Pairwise fun x y => x.variableName? ≠ y.variableName? := by
  induction h with
  | nil => exact .nil
  | cons later ih =>
    refine .cons (fun y hy same => ?_) ih
    obtain ⟨i, u, rfl, le, -⟩ := later.of_mem hy
    have := anon_injective (Option.some.inj same)
    omega

end

/-! ## Remaining parameters -/

/-- How the remaining parameters of a function are renamed when `arguments` are supplied and the
counter of fresh names goes from one number to another: a parameter that occurs in none of the
arguments is kept, and any other one gets the next fresh name. -/
inductive Renames (arguments : List Expr) :
    Nat → List Expr → List (Expr × Option Expr) → Nat → Prop
  | nil {lo : Nat} : Renames arguments lo [] [] lo
  | keep {lo hi : Nat} {p : Expr} {ps : List Expr} {remaining : List (Expr × Option Expr)}
      (absent : p.occursInAny arguments = .ok false)
      (later : Renames arguments lo ps remaining hi) :
    Renames arguments lo (p :: ps) ((p, none) :: remaining) hi
  | rename {lo hi : Nat} {p : Expr} {ps : List Expr} {remaining : List (Expr × Option Expr)}
      (later : Renames arguments (lo + 1) ps remaining hi) :
    Renames arguments lo (p :: ps) ((p, some (anonymousName lo p.token)) :: remaining) hi

section

variable {n lo hi : Nat} {arguments ps : List Expr} {remaining : List (Expr × Option Expr)}

/-- Renaming makes names upwards. -/
theorem Renames.le (h : Renames arguments lo ps remaining hi) : lo ≤ hi := by
  induction h with
  | nil => exact le_rfl
  | keep _ _ ih => exact ih
  | rename _ ih => exact (Nat.le_succ _).trans ih

/-- A parameter under its new name is either kept, and then it occurs in no argument, or fresh. -/
theorem Renames.of_mem (h : Renames arguments lo ps remaining hi) {q : Expr}
    (mem : q ∈ renamedParameters remaining) :
    (q ∈ ps ∧ q.occursInAny arguments = .ok false) ∨
      ∃ i token, q = anonymousName i token ∧ lo ≤ i ∧ i < hi := by
  induction h with
  | nil => cases mem
  | keep absent _ ih =>
    rcases List.mem_cons.1 mem with rfl | mem
    · exact .inl ⟨List.mem_cons_self, absent⟩
    · exact (ih mem).imp_left fun kept => ⟨List.mem_cons_of_mem _ kept.1, kept.2⟩
  | @rename lo hi p ps remaining later ih =>
    rcases List.mem_cons.1 mem with rfl | mem
    · exact .inr ⟨lo, p.token, rfl, le_rfl, later.le⟩
    · rcases ih mem with kept | ⟨i, token, eq, le, lt⟩
      · exact .inl ⟨List.mem_cons_of_mem _ kept.1, kept.2⟩
      · exact .inr ⟨i, token, eq, by omega, lt⟩

/-- Each new name has a number in between. -/
theorem Renames.of_mem_renamings (h : Renames arguments lo ps remaining hi) {b : Expr × Expr}
    (mem : b ∈ renamings remaining) :
    ∃ i token, b.2 = anonymousName i token ∧ lo ≤ i ∧ i < hi := by
  induction h with
  | nil => cases mem
  | keep _ _ ih => exact ih mem
  | @rename lo hi p ps remaining later ih =>
    rcases List.mem_cons.1 mem with rfl | mem
    · exact ⟨lo, p.token, rfl, le_rfl, later.le⟩
    · obtain ⟨i, token, eq, le, lt⟩ := ih mem
      exact ⟨i, token, eq, by omega, lt⟩

/-- The remaining parameters do not occur in the arguments. -/
theorem Renames.absent (h : Renames arguments lo ps remaining hi)
    (values : ∀ v ∈ arguments, v.IsBefore n) (le : n ≤ lo) {q v : Expr}
    (hq : q ∈ renamedParameters remaining) (hv : v ∈ arguments) : q.occursIn v = .ok false := by
  rcases h.of_mem hq with ⟨-, absent⟩ | ⟨i, token, rfl, ge, -⟩
  · exact occursInAny_eq_false absent v hv
  · exact (values v hv).occursIn_anonymousName (le.trans ge)

/-- The remaining parameters differ from one another as they did before. -/
theorem Renames.pairwise (h : Renames arguments lo ps remaining hi)
    (old : ∀ p ∈ ps, p.IsBefore n) (le : n ≤ lo) (distinct : ps.Pairwise Differ) :
    (renamedParameters remaining).Pairwise Differ := by
  induction h with
  | nil => exact .nil
  | @keep lo hi p ps remaining absent later ih =>
    obtain ⟨first, others⟩ := List.forall_mem_cons.1 old
    obtain ⟨apart, rest⟩ := List.pairwise_cons.1 distinct
    refine .cons (fun q hq => ?_) (ih others le rest)
    rcases later.of_mem hq with ⟨kept, -⟩ | ⟨i, token, rfl, ge, -⟩
    · exact apart q kept
    · exact first.differ_anonymousName (le.trans ge)
  | @rename lo hi p ps remaining later ih =>
    obtain ⟨-, others⟩ := List.forall_mem_cons.1 old
    refine .cons (fun q hq => ?_)
      (ih others (le.trans (Nat.le_succ _)) (List.pairwise_cons.1 distinct).2)
    rcases later.of_mem hq with ⟨kept, -⟩ | ⟨i, token, rfl, ge, -⟩
    · exact ((others q kept).differ_anonymousName le).symm
    · exact (isBefore_anonymousName (Nat.lt_succ_self lo)).differ_anonymousName ge

end

variable {s : Evaluator}

/-- Renaming the remaining parameters counts on, and changes nothing else of the state. Only an
obstacle can stop it. -/
theorem ends_freshParameters (arguments ps : List Expr) :
    Ends (freshParameters arguments ps) s
      (fun remaining t => t.environment = s.environment ∧
        Counts s.anonymous (namesFor arguments ps s) t.anonymous ∧
        Renames arguments s.anonymous ps remaining t.anonymous)
      fun failure t => (∃ o, failure = .obstacle o) ∧ t.environment = s.environment ∧
        Counts s.anonymous (namesFor arguments ps s) t.anonymous := by
  induction ps generalizing s with
  | nil => exact ends_pure ⟨rfl, .nil, .nil⟩
  | cons p ps ih =>
    cases occurs : p.occursInAny arguments with
    | error o =>
      -- a comparison that fails ends the renaming before it counts
      have failed : attempt (p.occursInAny arguments) s = (.error (.obstacle o), s) := by
        rw [occurs]
        rfl
      rw [freshParameters, namesFor, Trail.bind_of_error failed, Ends, bind_of_error failed]
      exact ⟨⟨o, rfl⟩, rfl, .nil⟩
    | ok taken =>
      have tested : attempt (p.occursInAny arguments) s = (.ok taken, s) := by
        rw [occurs]
        rfl
      rw [freshParameters, namesFor, Trail.bind_of_ok tested, Ends, bind_of_ok tested]
      cases taken with
      | false =>
        show Ends (freshParameters arguments ps >>= fun rest => pure ((p, none) :: rest)) s _ _
        refine Ends.bind (ih.mono ?_ fun _ _ h => h) fun rest t h => ends_pure h
        rintro rest t ⟨same, counts, renames⟩
        exact ⟨same, counts, renames.keep occurs⟩
      | true =>
        show Ends (freshParameters arguments ps >>= fun rest =>
          pure ((p, some (anonymousName s.anonymous p.token)) :: rest))
          { s with anonymous := s.anonymous + 1 } _ _
        refine Ends.bind (ih.mono ?_ ?_) fun rest t h => ends_pure h
        · rintro rest t ⟨same, counts, renames⟩
          exact ⟨same, counts.cons, renames.rename⟩
        · rintro _ t ⟨stopped, same, counts⟩
          exact ⟨stopped, same, counts.cons⟩

/-! ## Closures -/

/-- What is left of a function mentions the fresh names that the function and the arguments mention,
and those that are made for it. -/
theorem Renames.isBefore_closure {n lo hi : Nat} {f : Function} {arguments : List Expr}
    {remaining : List (Expr × Option Expr)} {name : Expr} {token : Option Token}
    (h : Renames arguments lo (f.parameters.drop arguments.length) remaining hi)
    (function : f.IsBefore n) (values : ∀ v ∈ arguments, v.IsBefore n) (le : n ≤ lo)
    (named : name.IsBefore hi) : (closure f arguments remaining name token).IsBefore hi := by
  have le := le.trans h.le
  have function := function.mono le
  have values : ∀ v ∈ arguments, v.IsBefore hi := fun v hv => (values v hv).mono le
  refine ⟨named, fun q hq => ?_, ?_, fun b hb => ?_, fun b hb => ?_⟩
  · rcases h.of_mem hq with ⟨kept, -⟩ | ⟨i, u, rfl, -, lt⟩
    · exact function.all q (List.mem_of_mem_drop kept)
    · exact isBefore_anonymousName lt
  · refine function.inner.substitute (fun old => old) fun b hb => ?_
    rcases List.mem_append.1 hb with hb | hb
    · exact values _ (List.of_mem_zip hb).2
    · obtain ⟨i, u, eq, -, lt⟩ := h.of_mem_renamings hb
      rw [eq]
      exact isBefore_anonymousName lt
  · rcases List.mem_append.1 hb with hb | hb
    · exact function.supplied b hb
    · exact function.all _ (List.of_mem_zip hb).1
  · rcases List.mem_append.1 hb with hb | hb
    · exact function.values b hb
    · exact values _ (List.of_mem_zip hb).2

end Evaluation

namespace Application

open Evaluation TexAlgebra.Expr

/-- The closures that an application builds when it renames parameters up to the counter `hi`. -/
def Builds (a : Application) (g : Function) (hi : Nat) : Prop :=
  ∃ remaining, Renames a.arguments (a.state.anonymous + 1)
      (a.function.parameters.drop a.arguments.length) remaining hi ∧
    g = closure a.function a.arguments remaining (anonymousName a.state.anonymous a.token) a.token

variable {a : Application}

/-- A partial application ends with the closure that is built for it, or for want of depth or of a
text. The environment stays as it is, and its names are counted. -/
theorem ends_build (a : Application) :
    Ends (build a.function a.arguments a.token) a.state
      (fun g t => t.environment = a.state.environment ∧
        Counts a.state.anonymous a.freshNames t.anonymous ∧ a.Builds g t.anonymous)
      fun failure t => (∃ o, failure = .obstacle o) ∧ t.environment = a.state.environment ∧
        Counts a.state.anonymous a.freshNames t.anonymous := by
  have renamed := @ends_freshParameters { a.state with anonymous := a.state.anonymous + 1 }
    a.arguments (a.function.parameters.drop a.arguments.length)
  have named : freshName a.token a.state = (.ok (anonymousName a.state.anonymous a.token),
    { a.state with anonymous := a.state.anonymous + 1 }) := rfl
  rw [build, Ends, bind_of_ok named]
  refine Ends.bind (renamed.mono (fun _ _ h => h) ?_) ?_
  · rintro _ t ⟨stopped, same, counts⟩
    exact ⟨stopped, same, counts.cons⟩
  · rintro remaining t ⟨same, counts, renames⟩
    exact ends_pure ⟨same, counts.cons, remaining, renames, rfl⟩

/-- A partial application counts on, binds nothing, and has a closure as its value unless an
obstacle stops it. -/
theorem ends_curry (a : Application) (room : Room) :
    Ends (curry room a.function a.arguments a.token) a.state
      (fun v t => t.environment = a.state.environment ∧
        Counts a.state.anonymous a.freshNames t.anonymous ∧
        ∃ g, a.Builds g t.anonymous ∧ v = g.toExpr)
      fun failure t => (∃ o, failure = .obstacle o) ∧ t.environment = a.state.environment ∧
        Counts a.state.anonymous a.freshNames t.anonymous := by
  rw [curry_eq_build]
  refine a.ends_build.bind fun g t ⟨same, counted, built⟩ => ?_
  refine ends_requireText_bind ?_ fun o => ⟨⟨o, rfl⟩, same, counted⟩
  refine ends_requireText_bind ?_ fun o => ⟨⟨o, rfl⟩, same, counted⟩
  exact ends_pure ⟨same, counted, g, built, rfl⟩

/-- The fresh names of an application have the numbers from the counter before it up to the counter
after it. -/
theorem counts (a : Application) : Counts a.state.anonymous a.freshNames a.counter :=
  (a.ends_build.mono (fun _ _ h => h.2.1) fun _ _ h => h.2.2).state

/-- A partial application that has a closure has built it. -/
theorem exists_builds_of_closure? {g : Function} (h : a.closure? = some g) :
    ∃ hi, a.Builds g hi := by
  have built := a.ends_build
  rw [closure?] at h
  split at h
  · next result =>
    cases h
    rw [Ends] at built
    split at built
    · next g' t same =>
      rw [same] at result
      cases result
      exact ⟨_, built.2.2⟩
    · next same =>
      rw [same] at result
      cases result
  · cases h

/-- Whether all that an application is about was there before it: its function and its arguments
mention no fresh name that is made by it or later. -/
structure IsKnown (a : Application) : Prop where
  function : a.function.IsBefore a.state.anonymous
  arguments : ∀ v ∈ a.arguments, v.IsBefore a.state.anonymous

variable {g : Function}

/-- No parameter that is left occurs in an argument that was supplied. -/
theorem IsKnown.occursIn_eq_false (h : a.IsKnown) (built : a.closure? = some g) {q v : Expr}
    (hq : q ∈ g.parameters) (hv : v ∈ a.arguments) : q.occursIn v = .ok false := by
  obtain ⟨hi, remaining, renames, rfl⟩ := exists_builds_of_closure? built
  exact renames.absent h.arguments (Nat.le_succ _) hq hv

/-- The parameters that are left differ if those of the function did. -/
theorem IsKnown.pairwise_differ (h : a.IsKnown) (built : a.closure? = some g)
    (distinct : a.function.parameters.Pairwise Differ) : g.parameters.Pairwise Differ := by
  obtain ⟨hi, remaining, renames, rfl⟩ := exists_builds_of_closure? built
  exact renames.pairwise (fun p hp => h.function.all p (List.mem_of_mem_drop hp)) (Nat.le_succ _)
    (distinct.sublist (List.drop_sublist _ _))

/-- The closure of a known application has known names and those that were made for it. -/
theorem IsKnown.isBefore_of_builds {hi : Nat} (h : a.IsKnown) (built : a.Builds g hi) :
    g.IsBefore hi := by
  obtain ⟨remaining, renames, rfl⟩ := built
  exact renames.isBefore_closure h.function h.arguments (Nat.le_succ _)
    (isBefore_anonymousName renames.le)

end Application

end TexAlgebra
