import TexAlgebra.Proofs.Document.Trail
import TexAlgebra.Proofs.Grammar.Lookahead
/-!
# Documents in parts

A document can be read in two parts, if the first ends with a statement and can be read without
faults: its statements are those of the first part and then those of the second, in which the
functions of the first are known (`Document.statements_append_end`).

Both parts are excerpts of the document. In the first one every statement is read as in the
document, because an expression persists if the end of a statement follows; in the second one faults
and what is skipped after them are the same as well, since nothing follows.
-/

namespace TexAlgebra

namespace Document

open TexAlgebra.Parser

/-! ## Statements from a cursor on -/

/-- The statements that are read from a cursor on. -/
def statementsFrom (context : Context) (k : Cursor) : List Statement :=
  statements context.known ⟨k, context.ending⟩

/-- The names of functions that were noted when all statements of a document are read. -/
def noted (known : Expr → Bool) (d : Document) : List Expr :=
  ((trail (fun _ => known) (fun s _ => (s, ())) () d).getLast?.map (·.cursor.functions)).getD []

section

variable {known : Expr → Bool} {d rest : Document} {s : Statement}

/-- What is noted behind a statement was noted by the rest. -/
theorem noted_of_next?_eq_some (h : d.next? known = some (s, rest)) :
    d.noted known = rest.noted known := by
  obtain ⟨last, found, _⟩ := getLast?_trail (fun _ => known) (fun s _ => (s, ())) () rest
  rw [noted, noted, trail_of_next?_eq_some h, List.getLast?_cons, found]
  rfl

/-- A document without a next statement has noted what it has at its cursor. -/
theorem noted_of_next?_eq_none (h : d.next? known = none) :
    d.noted known = d.cursor.functions := by
  rw [noted, trail_of_next?_eq_none h]
  rfl

end

section

variable {context : Context} {k after : Cursor} {a : Expr} {fault : ParseFault}

/-- An expression that is read is the next statement. -/
theorem next?_of_done (present : (atStatement k).rest ≠ [])
    (reading : expression context (atStatement k) = .done a after) :
    next? context.known ⟨k, context.ending⟩ = some (.ok a, ⟨after, context.ending⟩) := by
  simp only [next?, if_neg present, reading]

/-- A fault is the next statement, and reading goes on behind it. -/
theorem next?_of_failed (present : (atStatement k).rest ≠ [])
    (reading : expression context (atStatement k) = .failed fault after) :
    next? context.known ⟨k, context.ending⟩ =
      some (.error fault, ⟨resumed (atStatement k) after, context.ending⟩) := by
  simp only [next?, if_neg present, reading]

/-- At the end there are no statements. -/
theorem statementsFrom_of_ended (ended : (atStatement k).rest = []) :
    statementsFrom context k = [] :=
  statements_of_next?_eq_none (next?_eq_none_iff.2 ended)

/-- Behind an expression come the statements from there on. -/
theorem statementsFrom_of_done (present : (atStatement k).rest ≠ [])
    (reading : expression context (atStatement k) = .done a after) :
    statementsFrom context k = .ok a :: statementsFrom context after :=
  statements_of_next?_eq_some (next?_of_done present reading)

/-- Behind a fault come the statements from where reading goes on. -/
theorem statementsFrom_of_failed (present : (atStatement k).rest ≠ [])
    (reading : expression context (atStatement k) = .failed fault after) :
    statementsFrom context k =
      .error fault :: statementsFrom context (resumed (atStatement k) after) :=
  statements_of_next?_eq_some (next?_of_failed present reading)

/-- Induction on the statements that are read from a cursor on. -/
theorem statementsFrom_induction (context : Context) {motive : Cursor → Prop}
    (ended : ∀ k, (atStatement k).rest = [] → motive k)
    (done : ∀ k a after, (atStatement k).rest ≠ [] →
      expression context (atStatement k) = .done a after → motive after → motive k)
    (failed : ∀ k fault after, (atStatement k).rest ≠ [] →
      expression context (atStatement k) = .failed fault after →
      motive (resumed (atStatement k) after) → motive k) (k : Cursor) : motive k := by
  by_cases present : (atStatement k).rest = []
  · exact ended k present
  cases reading : expression context (atStatement k) with
  | done a after =>
    have fewer := size_lt_of_next? (next?_of_done present reading)
    exact done k a after present reading (statementsFrom_induction context ended done failed after)
  | failed fault after =>
    have fewer := size_lt_of_next? (next?_of_failed present reading)
    exact failed k fault after present reading
      (statementsFrom_induction context ended done failed _)
  | exhausted => exact absurd reading (expression_ne_exhausted _ _)
termination_by k.rest.length

/-- Ends of statements at the cursor make no difference. -/
theorem statementsFrom_congr {k' : Cursor} (same : atStatement k = atStatement k') :
    statementsFrom context k = statementsFrom context k' := by
  have next : next? context.known ⟨k, context.ending⟩ =
      next? context.known ⟨k', context.ending⟩ := by
    simp only [next?, same]
  cases first : next? context.known ⟨k', context.ending⟩ with
  | none =>
    exact (statements_of_next?_eq_none (next.trans first)).trans
      (statements_of_next?_eq_none first).symm
  | some outcome =>
    exact (statements_of_next?_eq_some (next.trans first)).trans
      (statements_of_next?_eq_some first).symm

/-- An end of a statement before all statements is skipped. -/
theorem statementsFrom_drop_end {e : Token} {tokens : List Token} {functions : List Expr}
    (ends : e.kind = .endOfStatement) :
    statementsFrom context ⟨e :: tokens, functions⟩ = statementsFrom context ⟨tokens, functions⟩ :=
  statementsFrom_congr (by simp only [atStatement, List.dropWhile_cons, ends, decide_true]; rfl)

end

/-! ## Excerpts -/

section

variable (E : Excerpt) {k start after : Cursor}

/-- A statement of an excerpt is one of the whole. -/
theorem atStatement_inWhole (present : (atStatement k).rest ≠ []) :
    atStatement (E.inWhole k) = E.inWhole (atStatement k) := by
  simp only [atStatement] at present
  simp only [atStatement, Excerpt.inWhole, List.dropWhile_append, List.isEmpty_iff, if_neg present]

/-- Behind the statements of an excerpt come those that follow it. -/
theorem atStatement_inWhole_of_ended (ended : (atStatement k).rest = []) :
    atStatement (E.inWhole k) = atStatement ⟨E.more, E.names ++ k.functions⟩ := by
  simp only [atStatement] at ended
  simp only [atStatement, Excerpt.inWhole, List.dropWhile_append, List.isEmpty_iff, if_pos ended]

/-- After a fault the same tokens are skipped, and if none is left in the excerpt, then more of what
follows it. -/
theorem resumed_inWhole (present : start.rest ≠ []) :
    resumed (E.inWhole start) (E.inWhole after) =
      if (resumed start after).rest = [] then
        ⟨E.more.dropWhile (!isBoundary ·), E.names ++ after.functions⟩
      else E.inWhole (resumed start after) := by
  have lengths : (E.inWhole after).rest.length = (E.inWhole start).rest.length ↔
      after.rest.length = start.rest.length := by
    rw [Excerpt.inWhole, Excerpt.inWhole, List.length_append, List.length_append,
      Nat.add_right_cancel_iff]
  obtain ⟨tokens, left, left'⟩ : ∃ tokens,
      resumed start after = ⟨tokens.dropWhile (!isBoundary ·), after.functions⟩ ∧
      resumed (E.inWhole start) (E.inWhole after) =
        ⟨(tokens ++ E.more).dropWhile (!isBoundary ·), E.names ++ after.functions⟩ := by
    by_cases same : after.rest.length = start.rest.length
    · have nonempty : 1 ≤ after.rest.length := same ▸ List.length_pos_iff.2 present
      refine ⟨after.rest.drop 1, by simp only [resumed, if_pos same], ?_⟩
      simp only [resumed, if_pos (lengths.2 same), ← List.drop_append_of_le_length nonempty]
      rfl
    · exact ⟨after.rest, by simp only [resumed, if_neg same],
        by simp only [resumed, if_neg (mt lengths.1 same)]; rfl⟩
  rw [left', left, List.dropWhile_append]
  simp only [List.isEmpty_iff]
  split <;> rfl

variable {E}

section

variable (same : E.Same expression (atStatement k)) (present : (atStatement k).rest ≠ [])
include same present

/-- An expression that is read in an excerpt is read in the whole. -/
theorem statementsFrom_inWhole_of_done {a : Expr}
    (reading : expression E.context (atStatement k) = .done a after) :
    statementsFrom E.whole (E.inWhole k) = .ok a :: statementsFrom E.whole (E.inWhole after) := by
  rw [Excerpt.Same, reading, ← atStatement_inWhole E present] at same
  refine statementsFrom_of_done ?_ same
  rw [atStatement_inWhole E present]
  exact List.append_ne_nil_of_left_ne_nil present _

/-- A fault in an excerpt is one in the whole, and reading goes on there. -/
theorem statementsFrom_inWhole_of_failed {fault : ParseFault}
    (reading : expression E.context (atStatement k) = .failed fault after) :
    statementsFrom E.whole (E.inWhole k) = .error fault :: statementsFrom E.whole
      (resumed (E.inWhole (atStatement k)) (E.inWhole after)) := by
  rw [Excerpt.Same, reading, ← atStatement_inWhole E present] at same
  rw [← atStatement_inWhole E present]
  refine statementsFrom_of_failed ?_ same
  rw [atStatement_inWhole E present]
  exact List.append_ne_nil_of_left_ne_nil present _

end

/-- The statements of an excerpt that can be read without faults, and then those of what follows.
The functions of the excerpt are known there. -/
theorem statementsFrom_of_isClosed (hE : E.IsClosed) (k : Cursor)
    (valid : ∀ s ∈ statementsFrom E.context k, s.isOk = true) :
    statementsFrom E.whole (E.inWhole k) = statementsFrom E.context k ++ statementsFrom E.whole
      ⟨E.more, E.names ++ noted E.context.known ⟨k, E.context.ending⟩⟩ := by
  induction k using statementsFrom_induction E.context with
  | ended k ended =>
    rw [statementsFrom_of_ended ended, noted_of_next?_eq_none (next?_eq_none_iff.2 ended),
      List.nil_append]
    exact statementsFrom_congr (atStatement_inWhole_of_ended E ended)
  | done k a after present reading ih =>
    have same := persists_expression hE (atStatement k) (.inl (by rw [reading]; rfl))
    rw [statementsFrom_of_done present reading] at valid ⊢
    rw [statementsFrom_inWhole_of_done same present reading,
      noted_of_next?_eq_some (next?_of_done present reading),
      ih (List.forall_mem_cons.1 valid).2, List.cons_append]
  | failed k fault after present reading ih =>
    rw [statementsFrom_of_failed present reading] at valid
    cases (List.forall_mem_cons.1 valid).1

/-- Where nothing follows an excerpt, the statements are the same. -/
theorem statementsFrom_of_more_eq_nil (hE : E.IsClosed) (last : E.more = []) (k : Cursor) :
    statementsFrom E.whole (E.inWhole k) = statementsFrom E.context k := by
  induction k using statementsFrom_induction E.context with
  | ended k ended =>
    rw [statementsFrom_of_ended ended]
    refine statementsFrom_of_ended ?_
    rw [atStatement_inWhole_of_ended E ended, last]
    rfl
  | done k a after present reading ih =>
    have same := persists_expression hE (atStatement k) (.inr last)
    rw [statementsFrom_of_done present reading,
      statementsFrom_inWhole_of_done same present reading, ih]
  | failed k fault after present reading ih =>
    have same := persists_expression hE (atStatement k) (.inr last)
    have resumes : resumed (E.inWhole (atStatement k)) (E.inWhole after) =
        E.inWhole (resumed (atStatement k) after) := by
      rw [resumed_inWhole E present, last]
      split
      · next none => rw [Excerpt.inWhole, none, last]; rfl
      · rfl
    rw [statementsFrom_of_failed present reading,
      statementsFrom_inWhole_of_failed same present reading, resumes, ih]

end

/-- Names of functions that were noted count as known. -/
theorem statementsFrom_eq_known (context : Context) (rest : List Token) (names : List Expr) :
    statementsFrom context ⟨rest, names⟩ = statementsFrom
      { context with known := fun x => names.any (· == x) || context.known x } ⟨rest, []⟩ := by
  let E : Excerpt :=
    { context := { context with known := fun x => names.any (· == x) || context.known x }
      whole := context
      names := names
      more := []
      known := fun x => Bool.or_comm _ _ }
  have same := statementsFrom_of_more_eq_nil (E := E) ⟨nofun, fun _ => rfl⟩ rfl ⟨rest, []⟩
  simpa only [E, Excerpt.inWhole, List.append_nil] using same

/-! ## Tokens -/

section

variable {first second : List Token} (inner : ∀ t ∈ first, t.kind ≠ .endOfText)
include inner

/-- What comes last in a document is read from there on like a document of its own. -/
theorem statementsFrom_ofTokens_append (known : Expr → Bool) {k : Cursor}
    (tail : k.rest <:+ (ofTokens second).cursor.rest) :
    statementsFrom ⟨(ofTokens (first ++ second)).ending, known⟩ k =
      statementsFrom ⟨(ofTokens second).ending, known⟩ k := by
  by_cases none : second = []
  · have ended : (atStatement k).rest = [] := by
      rw [none] at tail
      rw [atStatement, List.suffix_nil.1 tail]
      rfl
    rw [statementsFrom_of_ended ended, statementsFrom_of_ended ended]
  · rw [ending_ofTokens_append inner none]

end

/-- The statements of some tokens that can be read without faults, the end of a statement and any
other tokens are those of the first tokens and then those of the others, where the functions of the
first ones are known. -/
theorem statements_append_end (known : Expr → Bool) {first : List Token} (second : List Token)
    {e : Token} (ends : e.kind = .endOfStatement) (inner : ∀ t ∈ first, t.kind ≠ .endOfText)
    (valid : ∀ s ∈ (ofTokens first).statements known, s.isOk = true) :
    (ofTokens (first ++ e :: second)).statements known =
      (ofTokens first).statements known ++ (ofTokens second).statements fun x =>
        (noted known (ofTokens first)).any (· == x) || known x := by
  have inner' : ∀ t ∈ first ++ [e], t.kind ≠ .endOfText :=
    List.forall_mem_append.2 ⟨inner, List.forall_mem_singleton.2 (ends.trans_ne nofun)⟩
  let E : Excerpt :=
    { context := ⟨(ofTokens first).ending, known⟩
      whole := ⟨(ofTokens (first ++ [e] ++ second)).ending, known⟩
      names := []
      more := e :: (ofTokens second).cursor.rest
      known := fun x => (Bool.or_false _).symm }
  have closed : E.IsClosed := ⟨fun t ht => Option.some.inj ht ▸ ends, nofun⟩
  have whole : (ofTokens (first ++ [e] ++ second)).cursor = E.inWhole (ofTokens first).cursor := by
    rw [cursor_ofTokens_append inner', cursor_ofTokens inner, List.append_assoc]
    rfl
  have parts := statementsFrom_of_isClosed closed (ofTokens first).cursor valid
  rw [← whole, statementsFrom_drop_end ends] at parts
  rw [List.append_cons]
  refine parts.trans (congrArg _ ((statementsFrom_eq_known _ _ _).trans ?_))
  exact statementsFrom_ofTokens_append inner' _ List.suffix_rfl

/-- A function that is defined in the first part is called in the second, before a fault. -/
theorem statements_append_end_call :
    let first := (ofText "\\func\x7bf(x)\x7d\x7bx\x7d").cursor.rest
    let e : Token := ⟨.endOfStatement, ⟨1, 14, 14⟩, "\n\n"⟩
    let second := (tokenize "f(2) + g(3)\n\n)").tokens
    (∀ t ∈ first, t.kind ≠ .endOfText) ∧
      (∀ s ∈ (ofTokens first).statements fun _ => false, s.isOk = true) ∧
      (ofTokens (first ++ e :: second)).statements (fun _ => false) =
        (ofTokens first).statements (fun _ => false) ++ (ofTokens second).statements fun x =>
          (noted (fun _ => false) (ofTokens first)).any (· == x) || false := by
  intro first e second
  have inner : ∀ t ∈ first, t.kind ≠ .endOfText := by decide +kernel
  have valid : ∀ s ∈ (ofTokens first).statements fun _ => false, s.isOk = true := by decide +kernel
  exact ⟨inner, valid, statements_append_end (fun _ => false) second rfl inner valid⟩

end Document

end TexAlgebra
