import TexAlgebra.Proofs.Session.Functions
import TexAlgebra.Proofs.Session.Pieces
/-!
# Documents made of texts

Several texts with lines between them that hold only a double backslash make up one document. Within
a document a name stays that of a function once it was noted, while from one text to the next only
the bindings of the session count. The two agree as long as a run keeps its functions: whatever a
statement defines is bound, so it is not defined in a statement that fails or only in the body of a
function, and it is not bound to anything but a function later (`Session.KeepsFunctions`). Then the
document has the outcomes of the texts that are run one after the other, up to places
(`Session.run_joined`). Without either of these conditions the two ways to run the texts part.
-/

namespace TexAlgebra.Session

open Document

/-! ## Runs that keep their functions -/

/-- Whether a variable, if it is bound in a session, is bound to a function. -/
def IsFunctionIfBound (s : Session) (x : Expr) : Prop :=
  ∃ found, s.environment.lookup x = .ok found ∧ ∀ v ∈ found, v.isFunction = true

/-- Whether at every point of a run the names of the functions that were defined so far are those of
functions for the session. -/
structure KeepsFunctions (outcomes : List (Except Obstacle Outcome × Session)) : Prop where
  /-- Every function that statements define has been bound by one of them that succeeded. -/
  bound : ∀ n ≤ outcomes.length, ∀ x ∈ defined (outcomes.take n),
    (bound (outcomes.take n)).any (· == x) = true
  /-- The names of functions are bound to nothing but functions. -/
  kept : ∀ n ≤ outcomes.length, ∀ x, (defined (outcomes.take n)).any (· == x) = true →
    (initial.after (outcomes.take n)).IsFunctionIfBound x

variable {s : Session} {x : Expr} {outcomes : List (Except Obstacle Outcome × Session)}

/-- A variable that is bound, and to nothing but a function, is known as one. -/
theorem knowsFunction_of_keeps (kept : s.environment.Keeps x) (h : s.IsFunctionIfBound x) :
    s.knowsFunction x = true := by
  obtain ⟨found, lookup, functions⟩ := h
  cases found with
  | none => exact absurd lookup kept.lookup_ne
  | some v =>
    have lookup : s.evaluator.environment.lookup x = .ok (some v) := lookup
    rw [knowsFunction, Evaluator.knowsFunction, lookup]
    exact functions v rfl

/-- At every point of the run the session knows the functions that were defined so far. -/
theorem KeepsFunctions.knows (h : KeepsFunctions outcomes)
    {past : List (Except Obstacle Outcome × Session)} (start : past <+: outcomes)
    (carried : Carried initial past) {n : Expr} (mem : n ∈ defined past) (same : (n == x) = true) :
    (initial.after past).knowsFunction x = true := by
  have bound := h.bound past.length start.length_le
  have kept := h.kept past.length start.length_le x
  rw [← List.prefix_iff_eq_take.1 start] at bound kept
  obtain ⟨b, found, equal⟩ := List.any_eq_true.1 (bound n mem)
  have keeps := (carried.keeps_of_bound isAtRest_initial found).of_beq (BEq.trans equal same)
  exact knowsFunction_of_keeps keeps (kept (List.any_eq_true.2 ⟨n, mem, same⟩))

/-! ## Names that a document notes -/

/-- A statement is read alike if the names in question are known as those of functions anyway. -/
theorem readsAlike_of_known {names : List Expr} {stage : Document × Session}
    (h : ∀ n ∈ names, ∀ x, (n == x) = true → stage.2.knowsFunction x = true) :
    ReadsAlike names stage := by
  have same : (fun x => stage.2.knowsFunction x || names.any (· == x)) =
      stage.2.knowsFunction := by
    funext x
    cases noted : names.any (· == x) with
    | false => exact Bool.or_false _
    | true =>
      obtain ⟨n, member, equal⟩ := List.any_eq_true.1 noted
      rw [Bool.or_true, h n member x equal]
  rw [ReadsAlike, same]

/-- What a statement notes is among the functions that it defines. -/
theorem mem_functions_of_next? {d rest : Document} {known : Expr → Bool} {e n : Expr}
    (next : d.next? known = some (.ok e, rest)) (mem : n ∈ rest.cursor.functions) :
    n ∈ d.cursor.functions ∨ n ∈ e.functionNames true := by
  simp only [Document.next?] at next
  split at next
  · cases next
  split at next
  · next reading =>
    cases next
    exact Parser.mem_of_expression reading mem
  · cases next
  · cases next

/-- A statement that succeeds defines the functions in it. -/
theorem definedBy_carryOut {e : Expr} {outcome : Outcome} {after : Session}
    (carried : s.carryOut (.ok e) = (.ok outcome, after)) :
    definedBy (.ok outcome, after) = e.functionNames true := by
  have parsed : outcome.parsed = some e := by
    have made := executed e s
    rw [show s.execute e = (.ok outcome, after) from carried] at made
    exact made.parsed rfl
  obtain ⟨_, result⟩ := outcome
  cases parsed
  rfl

/-- The names that a document has noted are those of the functions that its statements define. -/
theorem mem_of_mem_noted {d : Document} {s : Session} {n : Expr}
    (readable : ∀ o ∈ untilObstacle (d.process knowsFunction carryOut s), isRead o = true)
    (mem : n ∈ noted d s) : n ∈ d.cursor.functions ∨
      n ∈ defined (untilObstacle (d.process knowsFunction carryOut s)) := by
  cases next : d.next? s.knowsFunction with
  | none =>
    rw [noted_of_none next] at mem
    exact .inl mem
  | some found =>
    obtain ⟨statement, rest⟩ := found
    rw [process_of_next?_eq_some next] at readable ⊢
    rcases carried : s.carryOut statement with ⟨result, after⟩
    rw [carried] at readable
    cases result with
    | error o =>
      -- an obstacle ends the document, so nothing else was noted
      have last : stages d s = [(d, s)] := by
        rw [stages]
        split
        · rfl
        · next found =>
          cases next.symm.trans found
          rw [carried]
      rw [noted, last] at mem
      exact .inl mem
    | ok outcome =>
      rw [untilObstacle_ok] at readable ⊢
      rw [noted_of_ok next carried] at mem
      rw [defined, List.flatMap_cons, List.mem_append]
      obtain before | later :=
        mem_of_mem_noted (fun o h => readable o (List.mem_cons_of_mem _ h)) mem
      · cases statement with
        | error fault =>
          cases carried
          -- a statement that is not read is excluded
          cases readable _ List.mem_cons_self
        | ok e =>
          rw [definedBy_carryOut carried]
          exact (mem_functions_of_next? next before).imp_right .inl
      · exact .inr (.inr later)
termination_by d.size
decreasing_by exact Document.size_lt_of_next? next

/-! ## Texts that are read alike -/

/-- Every statement of a document is read alike where the names in question are those of functions
that were defined before. -/
theorem KeepsFunctions.readsAlike (h : KeepsFunctions outcomes)
    {past : List (Except Obstacle Outcome × Session)} {d : Document} {s : Session}
    {names : List Expr} (carried : Carried initial past) (reached : initial.after past = s)
    (named : names ⊆ defined past)
    (start : past ++ untilObstacle (d.process knowsFunction carryOut s) <+: outcomes) :
    ∀ stage ∈ stages d s, ReadsAlike names stage := by
  have first : ReadsAlike names (d, s) := readsAlike_of_known fun n mem x same =>
    reached ▸ h.knows ((List.prefix_append _ _).trans start) carried (named mem) same
  intro stage mem
  rw [stages] at mem
  split at mem
  · rw [List.mem_singleton.1 mem]
    exact first
  · next statement rest next =>
    rw [process_of_next?_eq_some next] at start
    split at mem
    · next outcome after carries =>
      rcases List.mem_cons.1 mem with rfl | mem
      · exact first
      · -- for the rest, the statement belongs to what was carried out before
        have executed : Carried (initial.after past) [(.ok outcome, after)] :=
          ⟨⟨statement, reached ▸ carries⟩, trivial⟩
        have named' : names ⊆ defined (past ++ [(.ok outcome, after)]) := by
          rw [defined, List.flatMap_append]
          exact List.subset_append_of_subset_left _ named
        rw [carries, untilObstacle_ok, List.append_cons] at start
        refine h.readsAlike (carried.append executed) ?_ named' start stage mem
        rw [after_append]
        rfl
    · rw [List.mem_singleton.1 mem]
      exact first
termination_by d.size
decreasing_by exact Document.size_lt_of_next? ‹_›

/-- The texts of a run that keeps its functions are read alike. -/
theorem KeepsFunctions.remembers (h : KeepsFunctions outcomes)
    (readable : ∀ o ∈ outcomes, isRead o = true) (sources : List String)
    {past : List (Except Obstacle Outcome × Session)} {names : List Expr}
    (carried : Carried initial past) (named : names ⊆ defined past)
    (start : past ++ untilObstacle ((initial.after past).runAll sources) <+: outcomes) :
    Remembers names sources (initial.after past) := by
  induction sources generalizing past names with
  | nil => trivial
  | cons source sources ih =>
    rw [runAll] at start
    have run : past ++ (initial.after past).run source <+: outcomes :=
      ((List.prefix_append_right_inj past).2 (untilObstacle_isPrefix_append _ _)).trans start
    refine ⟨h.readsAlike carried rfl named run, fun fine => ?_⟩
    rw [untilObstacle_append_of_ok fine, ← List.append_assoc, ← after_append] at start
    rw [← after_append]
    refine ih (carried.append (carried_run source _)) ?_ start
    rw [defined, List.flatMap_append]
    refine List.append_subset.2 ⟨List.subset_append_of_subset_left _ named, fun n mem => ?_⟩
    refine List.mem_append_right _ ((mem_of_mem_noted (fun o mem => ?_) mem).resolve_left ?_)
    · exact readable o (run.mem (List.mem_append_right _ mem))
    · exact List.not_mem_nil

/-! ## Names without subscripts -/

/-- Whether an expression is a name without subscripts. -/
def isBareName : Expr → Bool
  | .var _ [] _ => true
  | _ => false

/-- A name without subscripts is the same as another one only if they are spelled alike. -/
theorem eq_of_isBareName {n x : Expr} (bare : isBareName n = true) (same : (n == x) = true) :
    ∃ name t t', n = .var name [] t ∧ x = .var name [] t' := by
  unfold isBareName at bare
  split at bare
  · next name t =>
    cases x with
    | var name' subscripts t' =>
      obtain ⟨names_eq, none⟩ := Bool.and_eq_true_iff.1 same
      cases eq_of_beq names_eq
      cases subscripts with
      | nil => exact ⟨name, t, t', rfl, rfl⟩
      | cons e es => cases none
    | _ => cases same
  · cases bare

/-- What is known as the name of a function is bound to one, wherever the name occurs. -/
theorem isFunctionIfBound_of_known {n : Expr} (bare : isBareName n = true)
    (known : s.knowsFunction n = true) (same : (n == x) = true) : s.IsFunctionIfBound x := by
  obtain ⟨name, t, t', rfl, rfl⟩ := eq_of_isBareName bare same
  rw [knowsFunction, Evaluator.knowsFunction] at known
  split at known
  · next v lookup =>
    refine ⟨some v, ?_, fun w found => ?_⟩
    · rw [← Environment.lookup_var_token name t t']
      exact lookup
    · cases found
      exact known
  · cases known

/-- For names without subscripts it can be computed whether a run keeps its functions. -/
theorem keepsFunctions_of_known
    (bound : ∀ n ≤ outcomes.length, ∀ x ∈ defined (outcomes.take n),
      (bound (outcomes.take n)).any (· == x) = true)
    (known : ∀ n ≤ outcomes.length, ∀ m ∈ defined (outcomes.take n),
      isBareName m = true ∧ (initial.after (outcomes.take n)).knowsFunction m = true) :
    KeepsFunctions outcomes := by
  refine ⟨bound, fun n le x found => ?_⟩
  obtain ⟨m, mem, same⟩ := List.any_eq_true.1 found
  obtain ⟨bare, function⟩ := known n le m mem
  exact isFunctionIfBound_of_known bare function same

/-! ## Documents made of texts -/

/-- A document has the outcomes of its pieces that are run one after the other, up to places and up
to the first obstacle, if each of them can be read and the run keeps its functions. -/
theorem run_joined (sources : List String)
    (readable : ∀ o ∈ untilObstacle (initial.runAll sources), isRead o = true)
    (kept : KeepsFunctions (untilObstacle (initial.runAll sources))) :
    (initial.run (joined sources)).map unplacedResult =
      (untilObstacle (initial.runAll sources)).map unplacedResult := by
  have remembered : Remembers [] sources (initial.after []) :=
    kept.remembers readable sources trivial (List.nil_subset _) (List.prefix_refl _)
  exact process_joined sources rfl rfl rfl readable remembered

/-- A function that is defined in one piece is called in the next. -/
theorem run_joined_call :
    (∀ o ∈ untilObstacle (initial.runAll ["\\func\x7bf(x)\x7d\x7bx\x7d", "f(3)"]),
        isRead o = true) ∧
      KeepsFunctions
        (untilObstacle (initial.runAll ["\\func\x7bf(x)\x7d\x7bx\x7d", "f(3)"])) ∧
      (initial.run (joined ["\\func\x7bf(x)\x7d\x7bx\x7d", "f(3)"])).map unplacedResult =
        (untilObstacle (initial.runAll ["\\func\x7bf(x)\x7d\x7bx\x7d", "f(3)"])).map
          unplacedResult := by
  have readable : ∀ o ∈ untilObstacle (initial.runAll
      ["\\func\x7bf(x)\x7d\x7bx\x7d", "f(3)"]), isRead o = true := by decide +kernel
  have kept : KeepsFunctions (untilObstacle (initial.runAll
      ["\\func\x7bf(x)\x7d\x7bx\x7d", "f(3)"])) :=
    keepsFunctions_of_known (by decide +kernel) (by decide +kernel)
  exact ⟨readable, kept, run_joined _ readable kept⟩

/-- It does not suffice that the pieces can be read: after a statement that fails, the document
knows the functions that it was to define, and the session does not. -/
theorem run_joined_ne_runAll : ¬ ∀ sources : List String,
    (∀ o ∈ initial.runAll sources, isRead o = true) →
      (initial.run (joined sources)).map (·.1.map Outcome.unplaced) =
        (initial.runAll sources).map (·.1.map Outcome.unplaced) := by
  intro same
  have outcomes := same ["-z + \\func\x7bh(y)\x7d\x7by\x7d", "h(3)"] (by decide +kernel)
  -- the document calls `h`, which is not bound, and the second piece is a product
  have values := congrArg (List.map fun r : Except Obstacle Outcome =>
    (r.toOption.bind (·.result.toOption)).isSome) outcomes
  exact absurd values (by decide +kernel)

/-- Nor does it suffice that no statement fails: a function that is defined where evaluation does
not come, here in a subscript, is noted and not bound, and its call has no value in the document. -/
example :
    let sources := ["x_\x7b\\func\x7bg(y)\x7d\x7by\x7d\x7d", "g(3)"]
    let hasValue (r : Except Obstacle Outcome) := (r.toOption.bind (·.result.toOption)).isSome
    (initial.run (joined sources)).map (hasValue ·.1) = [true, false] ∧
      (initial.runAll sources).map (hasValue ·.1) = [true, true] := by
  decide +kernel

end TexAlgebra.Session
