import TexAlgebra.Proofs.Document
import TexAlgebra.Proofs.Grammar.Lossless
/-!
# Documents lose nothing

If all statements of a document can be read, then they hold all that the text says: the numbers and
the variables in them are those of the text, in its order, and every operator of the text is that of
one operation (`Document.nothing_is_lost`). The groups behind the two control words of a list are
not read, but kept as text.
-/

namespace TexAlgebra

namespace Document

open TexAlgebra.Expr

variable {known : Expr → Bool} {d rest : Document} {e : Expr} {es : List Expr}

/-- The next statement is spelled by the tokens up to what is left of the document. -/
theorem exists_spells_of_next? (h : d.next? known = some (.ok e, rest)) :
    ∃ ts, spoken .plain d.cursor.rest = ts ++ spoken .plain rest.cursor.rest ∧
      Grammar.Spells e ts := by
  simp only [next?] at h
  split at h
  · cases h
  split at h
  · next e' after reading =>
    cases h
    obtain ⟨ts, here, spells⟩ := Parser.spells_expression _ _ _ _ reading
    exact ⟨ts, by rw [← here, atStatement, spoken_dropWhile], spells⟩
  · cases h
  · cases h

/-- Without a next statement nothing is spoken. -/
theorem spoken_of_next?_eq_none (h : d.next? known = none) : spoken .plain d.cursor.rest = [] := by
  rw [← spoken_dropWhile]
  exact congrArg (spoken .plain) (next?_eq_none_iff.1 h)

/-- **The statements of a document are spelled by its tokens**, if all of them can be read. -/
theorem spelled_statements (accepted : d.statements known = es.map .ok) :
    Grammar.SpellsAll es (spoken .plain d.cursor.rest) := by
  induction es generalizing d with
  | nil =>
    cases next : d.next? known with
    | none =>
      rw [spoken_of_next?_eq_none next]
      exact .nil
    | some step =>
      rw [statements_of_next?_eq_some next] at accepted
      cases accepted
  | cons e es ih =>
    obtain ⟨rest, next, later⟩ := exists_next?_of_accepted accepted
    obtain ⟨ts, here, spells⟩ := exists_spells_of_next? next
    rw [here]
    exact spells.append (ih later)

/-- What was read from tokens has them. -/
theorem map_token_of_isReadFrom {ts : List Token} (h : List.Forall₂ IsReadFrom es ts) :
    es.map Expr.token = ts.map some := by
  induction h with
  | nil => rfl
  | cons read _ ih => rw [List.map_cons, List.map_cons, read.1, ih]

/-- Results without a fault are expressions. -/
theorem exists_map_ok {results : List Statement} (h : ∀ s ∈ results, s.isOk = true) :
    ∃ es : List Expr, results = es.map .ok := by
  induction results with
  | nil => exact ⟨[], rfl⟩
  | cons s results ih =>
    obtain ⟨first, later⟩ := List.forall_mem_cons.1 h
    obtain ⟨es, rfl⟩ := ih later
    cases s with
    | error fault => cases first
    | ok e => exact ⟨e :: es, rfl⟩

/-- **Nothing is lost.** If all statements of some tokens can be read, then their numbers and
variables are those tokens that are numbers and names, in order and with their texts. Their
operations fall into some that are the operators, in order, and others that no sign stands for; so
every operator is the token of exactly one operation. Tokens in the groups behind `\begin` and
`\end` do not count. -/
theorem nothing_is_lost {tokens : List Token}
    (accepted : (ofTokens tokens).statements known = es.map .ok) :
    let heard := outsideTexts .plain (tokens.takeWhile (·.kind ≠ .endOfText))
    List.Forall₂ IsReadFrom ((walkAll es).filter isAtom) (heard.filter Token.isAtom) ∧
    (∃ stated implied, ((walkAll es).filter isOperation).Perm (stated ++ implied) ∧
      List.Forall₂ IsReadFrom stated (heard.filter Token.isOperator) ∧
        ∀ e ∈ implied, IsImplied e) ∧
    ∀ t op, t.kind = .operator op → op ≠ .juxtaposed →
      ((walkAll es).filter isOperation).countP (·.token = some t) = heard.count t := by
  intro heard
  have spelled : Spelled (walkAll es) (heard.filter Token.isSpoken) := spelled_statements accepted
  have atoms : (heard.filter Token.isSpoken).filter Token.isAtom = heard.filter Token.isAtom := by
    rw [List.filter_filter]
    exact List.filter_congr fun t _ => t.isAtom_and_isSpoken
  have operators : (heard.filter Token.isSpoken).filter Token.isOperator =
      heard.filter Token.isOperator := by
    rw [List.filter_filter]
    exact List.filter_congr fun t _ => t.isOperator_and_isSpoken
  refine ⟨atoms ▸ spelled.atoms, operators ▸ spelled.operations, fun t op kind signed => ?_⟩
  rw [spelled.count_operations kind signed]
  exact List.count_filter (Token.isSpoken_of_kind kind rfl)

/-- A function in a list: the words behind `\begin` and `\end` are no variables of it. -/
theorem nothing_is_lost_list :
    let tokens := (tokenize "\\begin{aligned} \\func{f(x_1)}{-2x} \\end{aligned}").tokens
    ∃ es : List Expr, (ofTokens tokens).statements (fun _ => false) = es.map .ok ∧
      ((walkAll es).filter isAtom).map (·.token.map Token.text) =
        ["f", "x", "1", "2", "x"].map some := by
  intro tokens
  have done : ∀ s ∈ (ofTokens tokens).statements fun _ => false, s.isOk = true := by
    decide +kernel
  obtain ⟨es, accepted⟩ := exists_map_ok done
  obtain ⟨atoms, -, -⟩ := nothing_is_lost accepted
  refine ⟨es, accepted, ?_⟩
  have heard : ((outsideTexts .plain (tokens.takeWhile (·.kind ≠ .endOfText))).filter
      Token.isAtom).map Token.text = ["f", "x", "1", "2", "x"] := by decide +kernel
  have read := congrArg (List.map (Option.map Token.text)) (map_token_of_isReadFrom atoms)
  rw [List.map_map, List.map_map] at read
  rw [← heard, List.map_map]
  exact read

end Document

end TexAlgebra
