import TexAlgebra.Proofs.Document
import TexAlgebra.Proofs.Sourced.Parsing
/-!
# Documents that are read

What is read of a document comes from its tokens, like what is read of them directly, and so does
what is left of it (`Document.IsIn.next?`). Every property that is kept by what the grammar builds
holds of all its statements (`Document.IsIn.of_accepted`).
-/

namespace TexAlgebra

variable {S : Token → Prop}

/-- Whether the tokens of a document are in `S`, the one that ends it included. -/
structure Document.IsIn (S : Token → Prop) (d : Document) : Prop where
  ending : S (.ending d.ending)
  rest : ∀ t ∈ d.cursor.rest, S t

/-- The statements that come from the tokens: expressions, and faults at one of them. -/
def Statement.IsSourced (S : Token → Prop) : Statement → Prop
  | .ok e => e.IsSourced S
  | .error fault => S fault.token

/-- A statement comes from the tokens if its expression or its fault does. -/
theorem Statement.isSourced_of_cases {s : Statement} (read : ∀ e, s = .ok e → e.IsSourced S)
    (faulty : ∀ fault, s = .error fault → S fault.token) : s.IsSourced S := by
  cases s with
  | ok e => exact read e rfl
  | error fault => exact faulty fault rfl

namespace Document

/-- A document has the tokens of its text. -/
theorem isIn_ofText {source : String} (h : ∀ t ∈ (tokenize source).tokens, S t) :
    (ofText source).IsIn S := by
  obtain ⟨tokens, q, split, inner⟩ := Lexer.scan_tokens Position.start source.toList
  rw [tokenize, split] at h
  rw [ofText, tokenize, split, ofTokens_append_ending q inner]
  exact ⟨h _ (List.mem_append_right _ (List.mem_singleton_self _)),
    fun t ht => h t (List.mem_append_left _ ht)⟩

variable {d rest : Document} {known : Expr → Bool} {statement : Statement}

/-- What is read of a document has every property that is kept by what the grammar builds from its
tokens, and only such tokens are left. -/
theorem IsIn.next?_of_made {P : Expr → Prop} (h : d.IsIn S) (made : Expr.IsMade S P)
    (next : d.next? known = some (statement, rest)) :
    (∀ e, statement = .ok e → P e) ∧ (∀ fault, statement = .error fault → S fault.token) ∧
      rest.IsIn S := by
  have fewer : ∀ t ∈ (atStatement d.cursor).rest, S t := fun t ht =>
    h.rest t ((List.dropWhile_sublist _).mem ht)
  have read := Parser.yields_expression_of_made made ⟨d.ending, known⟩ (atStatement d.cursor)
    ⟨h.ending, fewer⟩
  simp only [Document.next?] at next
  split at next
  · cases next
  split at next
  · next e after reading =>
    cases next
    rw [reading] at read
    refine ⟨fun e done => ?_, fun fault failed => ?_, h.ending, read.2⟩
    · cases done
      exact read.1
    · cases failed
  · next fault after reading =>
    cases next
    rw [reading] at read
    refine ⟨fun e done => ?_, fun fault failed => ?_, h.ending, fun t ht => read.2 t ?_⟩
    · cases done
    · cases failed
      exact read.1
    have left := (List.dropWhile_sublist _).mem ht
    split at left
    · exact List.mem_of_mem_drop left
    · exact left
  · cases next

/-- What is read of a document comes from its tokens, and only such tokens are left. -/
theorem IsIn.next? (h : d.IsIn S) (lexed : ∀ t, S t → t.IsLexed)
    (next : d.next? known = some (statement, rest)) :
    Statement.IsSourced S statement ∧ rest.IsIn S := by
  obtain ⟨read, faulty, left⟩ := h.next?_of_made (Expr.isMade_isSourced lexed) next
  exact ⟨Statement.isSourced_of_cases read faulty, left⟩

/-- The statements of a document have every property that is kept by what the grammar builds from
its tokens, if all of them can be read. -/
theorem IsIn.of_accepted {P : Expr → Prop} {es : List Expr} (h : d.IsIn S)
    (made : Expr.IsMade S P) (accepted : d.statements known = es.map .ok) : ∀ e ∈ es, P e := by
  induction es generalizing d with
  | nil => exact fun _ mem => (List.not_mem_nil mem).elim
  | cons e es ih =>
    obtain ⟨rest, next, later⟩ := exists_next?_of_accepted accepted
    obtain ⟨read, -, left⟩ := h.next?_of_made made next
    exact List.forall_mem_cons.2 ⟨read e rfl, ih left later⟩

/-- What holds of the result of every statement, whatever holds of the state before it, holds of all
results of a document, if the statements keep what holds of the state. -/
theorem IsIn.forall_process {σ ρ : Type} {known : σ → Expr → Bool}
    {handle : Statement → σ → ρ × σ} {P : Expr → Prop} {I : σ → Prop} {Q : ρ × σ → Prop}
    (made : Expr.IsMade S P)
    (step : ∀ s state, (∀ e, s = .ok e → P e) → (∀ fault, s = .error fault → S fault.token) →
      I state → Q (handle s state) ∧ I (handle s state).2)
    {d : Document} (h : d.IsIn S) {state : σ} (start : I state) :
    ∀ r ∈ d.process known handle state, Q r := by
  cases next : d.next? (known state) with
  | none =>
    rw [process_of_next?_eq_none next]
    exact fun r hr => (List.not_mem_nil hr).elim
  | some found =>
    obtain ⟨s, rest⟩ := found
    obtain ⟨read, faulty, left⟩ := h.next?_of_made made next
    obtain ⟨here, kept⟩ := step s state read faulty start
    rw [process_of_next?_eq_some next]
    exact List.forall_mem_cons.2 ⟨here, IsIn.forall_process made step left kept⟩
termination_by d.size
decreasing_by exact size_lt_of_next? next

end Document

end TexAlgebra
