import TexAlgebra.Document
import Mathlib.Data.List.Basic
import Mathlib.Data.List.TakeWhile
/-!
# Reading documents

The statements of a document follow from what its first statement is and what is left after it. A
text whose tokens are read as one expression to their end is a document of one statement.
-/

namespace TexAlgebra

namespace Document

/-! ## Tokens -/

section

variable {first second : List Token} (inner : ∀ t ∈ first, t.kind ≠ .endOfText)
include inner

/-- A document starts at its first token. -/
theorem cursor_ofTokens : (ofTokens first).cursor = ⟨first, []⟩ :=
  congrArg (Cursor.mk · []) <|
    List.takeWhile_eq_self_iff.2 fun t ht => decide_eq_true (inner t ht)

/-- Tokens in front of a document are read before it. -/
theorem cursor_ofTokens_append :
    (ofTokens (first ++ second)).cursor = ⟨first ++ (ofTokens second).cursor.rest, []⟩ :=
  congrArg (Cursor.mk · []) <|
    List.takeWhile_append_of_pos fun t ht => decide_eq_true (inner t ht)

/-- A document ends where the tokens behind it end. -/
theorem ending_ofTokens_append (present : second ≠ []) :
    (ofTokens (first ++ second)).ending = (ofTokens second).ending := by
  have found : (first ++ second).find? (·.kind = .endOfText) =
      second.find? (·.kind = .endOfText) := by
    rw [List.find?_append, List.find?_eq_none.2 fun t ht => by simpa using inner t ht]
    rfl
  have last : endOf (first ++ second) = endOf second := by
    rw [endOf, endOf, List.getLast?_append_of_ne_nil _ present]
  simp only [ofTokens, found, last]

end

/-- The document of some tokens and the end token behind them. -/
theorem ofTokens_append_ending {tokens : List Token} (q : Position)
    (inner : ∀ t ∈ tokens, t.kind ≠ .endOfText) :
    ofTokens (tokens ++ [Token.ending q]) = ⟨⟨tokens, []⟩, q⟩ := by
  have cursor : (ofTokens (tokens ++ [Token.ending q])).cursor = ⟨tokens, []⟩ := by
    rw [cursor_ofTokens_append inner]
    exact congrArg (Cursor.mk · []) (List.append_nil tokens)
  have ending := ending_ofTokens_append inner (List.cons_ne_nil (Token.ending q) [])
  rw [← cursor]
  exact congrArg (Document.mk _) ending

/-! ## Statements -/

section

variable {σ ρ : Type} {known : σ → Expr → Bool} {handle : Statement → σ → ρ × σ} {state : σ}
  {d rest : Document} {s : Statement}

/-- Behind a statement the rest is processed in the state that the statement left. -/
theorem process_of_next?_eq_some (h : d.next? (known state) = some (s, rest)) :
    process known handle state d =
      handle s state :: process known handle (handle s state).2 rest := by
  rw [process]
  split
  · next none =>
    rw [none] at h
    cases h
  · next some =>
    rw [some] at h
    cases h
    rfl

/-- A document without statements has no outcomes. -/
theorem process_of_next?_eq_none (h : d.next? (known state) = none) :
    process known handle state d = [] := by
  rw [process]
  split
  · rfl
  · next some =>
    rw [some] at h
    cases h

/-- Handling statements with a state is handling them with what it is mapped to, if each step is. -/
theorem process_map {τ : Type} {known' : τ → Expr → Bool} {handle' : Statement → τ → ρ × τ}
    (f : σ → τ) (knows : ∀ state, known' (f state) = known state)
    (handles : ∀ s state, handle' s (f state) = ((handle s state).1, f (handle s state).2))
    (state : σ) (d : Document) :
    (process known handle state d).map (fun r => (r.1, f r.2)) =
      process known' handle' (f state) d := by
  cases next : d.next? (known state) with
  | none =>
    have next' : d.next? (known' (f state)) = none := by rw [knows, next]
    rw [process_of_next?_eq_none next, process_of_next?_eq_none next', List.map_nil]
  | some found =>
    obtain ⟨s, rest⟩ := found
    have next' : d.next? (known' (f state)) = some (s, rest) := by rw [knows, next]
    rw [process_of_next?_eq_some next, process_of_next?_eq_some next', List.map_cons, handles]
    exact congrArg (_ :: ·) (process_map f knows handles _ rest)
termination_by d.size
decreasing_by exact size_lt_of_next? next

end

section

variable {known : Expr → Bool} {d rest : Document} {s : Statement}

/-- Behind a statement come those of the rest. -/
theorem statements_of_next?_eq_some (h : d.next? known = some (s, rest)) :
    d.statements known = s :: rest.statements known := by
  rw [statements, process_of_next?_eq_some h]
  rfl

/-- A document without a next statement has none. -/
theorem statements_of_next?_eq_none (h : d.next? known = none) : d.statements known = [] := by
  rw [statements, process_of_next?_eq_none h]
  rfl

/-- If all statements of a document can be read, then so can the first one and all of the rest. -/
theorem exists_next?_of_accepted {e : Expr} {es : List Expr}
    (accepted : d.statements known = (e :: es).map .ok) :
    ∃ rest, d.next? known = some (.ok e, rest) ∧ rest.statements known = es.map .ok := by
  cases next : d.next? known with
  | none =>
    rw [statements_of_next?_eq_none next] at accepted
    cases accepted
  | some found =>
    obtain ⟨s, rest⟩ := found
    rw [statements_of_next?_eq_some next, List.map_cons, List.cons.injEq] at accepted
    obtain ⟨rfl, later⟩ := accepted
    exact ⟨rest, rfl, later⟩

end

/-- A document that is read to its end by one expression has one statement. -/
theorem statements_eq_singleton {known : Expr → Bool} {d : Document} {e : Expr}
    (functions : List Expr) (present : (atStatement d.cursor).rest ≠ [])
    (read : Parser.expression ⟨d.ending, known⟩ (atStatement d.cursor) = .done e ⟨[], functions⟩) :
    d.statements known = [.ok e] := by
  have first : d.next? known = some (.ok e, { d with cursor := ⟨[], functions⟩ }) := by
    simp only [next?, if_neg present, read]
  rw [statements_of_next?_eq_some first, statements_of_next?_eq_none (next?_eq_none_iff.2 rfl)]

end Document

end TexAlgebra
