import TexAlgebra.Proofs.Grammar.Fixpoint
/-!
# Texts and what follows them

A text can be read by itself or as the first part of a longer one, in which names of functions were
noted before it: an `Excerpt` says what is added. `Excerpt.Same` says that a parser does the same in
both at a cursor, with the same values, tokens included, the same faults, and the same tokens left
over. The lemmas here say when this is kept by the ways to build a parser. What a parser does at the
end of the excerpt, where something else may follow in the longer text, is left to those who use
them.
-/

namespace TexAlgebra

/-- The reading with another cursor. -/
def Reading.mapCursor {α : Type} (f : Cursor → Cursor) : Reading α → Reading α
  | .done a cursor => .done a (f cursor)
  | .failed fault cursor => .failed fault (f cursor)
  | .exhausted => .exhausted

/-- Whether a reading ends with a value. -/
def Reading.isDone {α : Type} : Reading α → Bool
  | .done _ _ => true
  | _ => false

/-- A depth that exceeds the number of tokens is enough to read an expression. -/
theorem Parser.expression_eq_ofDepth {k : Cursor} {depth : Nat} (context : Context)
    (deep : k.rest.length < depth) :
    expression context k = (Grammar.ofDepth depth).expression context k :=
  (Grammar.alike_ofDepth _ _ _ (Nat.le_refl _) deep).expression context k (Nat.lt_succ_self _)

/-- How a text is read by itself and in a longer one: what follows it there, and which names of
functions were noted before it. -/
structure Excerpt where
  context : Context
  whole : Context
  names : List Expr
  more : List Token
  /-- What is known in the excerpt is known in the longer text or was noted before. -/
  known : ∀ x, context.known x = (whole.known x || names.any (· == x))

namespace Excerpt

open TexAlgebra.Parser

variable {α β : Type} {E : Excerpt} {k : Cursor}

/-- The cursor of the longer text that is at the same token. -/
def inWhole (E : Excerpt) (k : Cursor) : Cursor := ⟨k.rest ++ E.more, E.names ++ k.functions⟩

/-- Whether a parser does at a cursor of the excerpt what it does there in the longer text. -/
def Same (E : Excerpt) (p : Parser α) (k : Cursor) : Prop :=
  p E.whole (E.inWhole k) = (p E.context k).mapCursor E.inWhole

/-- Within the excerpt the same token is at the cursor. -/
theorem token_inWhole (present : k.rest ≠ []) :
    (E.inWhole k).token E.whole = k.token E.context := by
  obtain ⟨t, rest, split⟩ := List.exists_cons_of_ne_nil present
  rw [Cursor.token, Cursor.token, inWhole, split]
  rfl

/-- A token that is read in an excerpt is read in the whole. -/
theorem drop_inWhole (present : k.rest ≠ []) :
    { E.inWhole k with rest := (E.inWhole k).rest.drop 1 } =
      E.inWhole { k with rest := k.rest.drop 1 } := by
  obtain ⟨t, rest, split⟩ := List.exists_cons_of_ne_nil present
  simp only [inWhole, split, List.cons_append, List.drop_one, List.tail_cons]

/-! ## Combination -/

theorem same_pure (a : α) : E.Same (pure a) k := rfl

theorem same_fail (cause : ParseCause) (token : Token) : E.Same (fail cause token : Parser α) k :=
  rfl

theorem same_exhausted : E.Same (exhausted : Parser α) k := rfl

/-- A sequence is the same in the whole if both of its steps are. -/
theorem same_bind {p : Parser α} {f : α → Parser β} (hp : E.Same p k)
    (hf : ∀ a after, p E.context k = .done a after → E.Same (f a) after) :
    E.Same (p >>= f) k := by
  rw [Same, bind_eq, andThen, andThen, hp]
  cases reading : p E.context k with
  | done a after => exact hf a after reading
  | failed fault after => rfl
  | exhausted => rfl

/-! ## Tokens and names -/

/-- What looks at a token is the same in the whole if it sees the same one there. -/
theorem same_peek_bind {f : Token → Parser β}
    (token : (E.inWhole k).token E.whole = k.token E.context)
    (hf : E.Same (f (k.token E.context)) k) : E.Same (peek >>= f) k := by
  rw [Same, peek_bind, peek_bind, token]
  exact hf

/-- What reads a token of the excerpt reads it in the whole. -/
theorem same_next_bind {f : Token → Parser β} (present : k.rest ≠ [])
    (hf : E.Same (f (k.token E.context)) { k with rest := k.rest.drop 1 }) :
    E.Same (next >>= f) k := by
  rw [Same, next_bind, next_bind, token_inWhole present, drop_inWhole present]
  exact hf

/-- What tests for a kind is the same in the whole if it sees the same kind there. -/
theorem same_sees_bind {kind : TokenKind} {f : Bool → Parser β}
    (kinds : ((E.inWhole k).token E.whole).kind = kind ↔ (k.token E.context).kind = kind)
    (hf : E.Same (f (decide ((k.token E.context).kind = kind))) k) :
    E.Same (sees kind >>= f) k := by
  rw [Same, sees_bind, sees_bind, decide_eq_decide.2 kinds]
  exact hf

/-- A name is noted in the whole as in the excerpt. -/
theorem same_define (name : Expr) : E.Same (define name) k := by
  rw [Same, define, define, inWhole, List.append_assoc]
  rfl

/-- The same names are taken for those of functions. -/
theorem same_isFunction (x : Expr) : E.Same (isFunction x) k := by
  have names : ((E.names ++ k.functions).any (· == x) || E.whole.known x) =
      (k.functions.any (· == x) || E.context.known x) := by
    rw [List.any_append, E.known x]
    cases E.names.any (· == x) <;> cases k.functions.any (· == x) <;>
      cases E.whole.known x <;> rfl
  exact congrArg (Reading.done · (E.inWhole k)) names

/-! ## Expressions -/

/-- The whole is as long as the excerpt at least. -/
theorem length_rest_le : k.rest.length ≤ (E.inWhole k).rest.length :=
  List.length_append ▸ Nat.le_add_right _ _

/-- The depth that the longer text needs is enough for both. -/
theorem same_expression
    (h : E.Same (Grammar.ofDepth ((E.inWhole k).rest.length + 1)).expression k) :
    E.Same expression k := by
  rw [Same, expression_eq_ofDepth E.context (Nat.lt_succ_of_le length_rest_le)]
  exact h

end Excerpt

end TexAlgebra
