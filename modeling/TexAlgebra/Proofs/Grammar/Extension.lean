import TexAlgebra.Proofs.Grammar.Fixpoint
import TexAlgebra.Proofs.Unplaced.Alike
/-!
# Parsers in a longer text

A text may be read as a part of a longer one, which goes on with the end of a statement and in which
names of functions were noted before: an `Extension` says how the longer text differs. A parser
extends if whatever it reads in the text is read in the longer one as well, the same up to places
(`Parser.Extends`). What fails in the text is not looked at. So at the end of the text, where the
longer one goes on, a parser has to take the end of a statement for an end or to fail.
-/

namespace TexAlgebra

/-! ## Extensions -/

/-- How a text is read in another one: what the text goes on with there, which names of functions
were noted before it, and what is known of functions in both. -/
structure Extension where
  context : Context
  context' : Context
  names : List Expr
  more : List Token
  /-- The text ends or goes on with the end of a statement. -/
  closed : ∀ t ∈ more.head?, t.kind = .endOfStatement
  /-- What is known in the text is known in the other one or was noted before. -/
  known : ∀ {x x' : Expr}, x.Alike x' →
    context.known x = (context'.known x' || names.any (· == x))

/-- Whether a cursor in a text and a cursor in the longer one are at the same token. -/
structure Extension.Continues (E : Extension) (k k' : Cursor) : Prop where
  rest : (k.rest ++ E.more).map Token.unplaced = k'.rest.map Token.unplaced
  functions : Expr.AllAlike (E.names ++ k.functions) k'.functions

/-- Whether two tokens are those that are seen at the same place of a text and of the longer one. -/
inductive Extension.Sees : Token → Token → Prop
  | same {t t' : Token} (alike : t.Alike t') : Sees t t'
  | ended {t t' : Token} (last : t.kind = .endOfText)
      (more : t'.kind = .endOfText ∨ t'.kind = .endOfStatement) : Sees t t'

namespace Parser

variable {E : Extension} {α β : Type} {R : α → α → Prop} {Q : β → β → Prop}

/-- Whether everything that `p` reads in a text is read by `p'` in the longer one, with a related
value. -/
def Extends (E : Extension) (R : α → α → Prop) (p p' : Parser α) : Prop :=
  ∀ ⦃k k' : Cursor⦄ ⦃a : α⦄ ⦃after : Cursor⦄, E.Continues k k' → p E.context k = .done a after →
    ∃ a' after', p' E.context' k' = .done a' after' ∧ R a a' ∧ E.Continues after after'

/-- Whether `Extends` holds where the tokens `t` and `t'` are at the cursors. -/
def ExtendsAt (E : Extension) (R : α → α → Prop) (t t' : Token) (p p' : Parser α) : Prop :=
  ∀ ⦃k k' : Cursor⦄ ⦃a : α⦄ ⦃after : Cursor⦄, E.Continues k k' → k.token E.context = t →
    k'.token E.context' = t' → p E.context k = .done a after →
    ∃ a' after', p' E.context' k' = .done a' after' ∧ R a a' ∧ E.Continues after after'

/-- Whether a parser reads nothing successfully. -/
def Fails (p : Parser α) : Prop := ∀ context cursor a after, p context cursor ≠ .done a after

/-! ## Failures -/

theorem fails_fail (cause : ParseCause) (token : Token) : (fail cause token : Parser α).Fails :=
  nofun

theorem fails_exhausted : (exhausted : Parser α).Fails := nofun

/-- A parser that always fails is extended by any other. -/
theorem Fails.extends {p : Parser α} (hp : p.Fails) (p' : Parser α) : Extends E R p p' :=
  fun _ _ _ _ _ h => absurd h (hp _ _ _ _)

theorem Fails.extendsAt {p : Parser α} (hp : p.Fails) (p' : Parser α) (t t' : Token) :
    ExtendsAt E R t t' p p' :=
  fun _ _ _ _ _ _ _ h => absurd h (hp _ _ _ _)

/-! ## Tokens -/

/-- A cursor that goes on sees an alike token, or the end where the other text goes on. -/
theorem sees_of_continues {k k' : Cursor} (h : E.Continues k k') :
    Extension.Sees (k.token E.context) (k'.token E.context') := by
  obtain ⟨rest, functions⟩ := k
  obtain ⟨rest', functions'⟩ := k'
  have rests := h.rest
  cases rest with
  | cons t rest =>
    cases rest' with
    | nil => cases rests
    | cons t' rest' => exact .same (List.head_eq_of_cons_eq rests)
  | nil =>
    refine .ended rfl ?_
    cases rest' with
    | nil => exact .inl rfl
    | cons t' rest' =>
      -- the longer text goes on with the end of a statement
      rw [List.nil_append] at rests
      cases more : E.more with
      | nil =>
        rw [more] at rests
        cases rests
      | cons u us =>
        rw [more] at rests
        have same : u.Alike t' := List.head_eq_of_cons_eq rests
        exact .inr (same.kind.symm.trans (E.closed u (by rw [more]; rfl)))

/-- Cursors that are at the same token are so when the token is taken. -/
theorem continues_drop {k k' : Cursor} (h : E.Continues k k')
    (present : (k.token E.context).kind ≠ .endOfText) :
    E.Continues { k with rest := k.rest.drop 1 } { k' with rest := k'.rest.drop 1 } := by
  obtain ⟨rest, functions⟩ := k
  obtain ⟨rest', functions'⟩ := k'
  refine ⟨?_, h.functions⟩
  cases rest with
  | nil => exact absurd rfl present
  | cons t rest =>
    have rests := h.rest
    cases rest' with
    | nil => cases rests
    | cons t' rest' => exact List.tail_eq_of_cons_eq rests

/-! ## Combination -/

theorem Extends.at {p p' : Parser α} (h : Extends E R p p') (t t' : Token) :
    ExtendsAt E R t t' p p' :=
  fun _ _ _ _ continues _ _ => h continues

theorem extends_pure {a a' : α} (h : R a a') : Extends E R (pure a) (pure a') := by
  intro k k' b after continues reading
  cases reading
  exact ⟨a', k', rfl, h, continues⟩

/-- A sequence is extended step by step. -/
theorem Extends.bind {p p' : Parser α} {f f' : α → Parser β} (hp : Extends E R p p')
    (hf : ∀ a a', R a a' → Extends E Q (f a) (f' a')) : Extends E Q (p >>= f) (p' >>= f') := by
  intro k k' b last continues reading
  obtain ⟨a, after, first, second⟩ := done_of_bind reading
  obtain ⟨a', after', first', related, continues⟩ := hp continues first
  rw [bind_of_done first']
  exact hf a a' related continues second

/-- A sequence at a token is extended step by step. -/
theorem ExtendsAt.bind {p p' : Parser α} {f f' : α → Parser β} {t t' : Token}
    (hp : ExtendsAt E R t t' p p') (hf : ∀ a a', R a a' → Extends E Q (f a) (f' a')) :
    ExtendsAt E Q t t' (p >>= f) (p' >>= f') := by
  intro k k' b last continues there there' reading
  obtain ⟨a, after, first, second⟩ := done_of_bind reading
  obtain ⟨a', after', first', related, continues⟩ := hp continues there there' first
  rw [bind_of_done first']
  exact hf a a' related continues second

/-- Two branches are extended by branches under the same condition. -/
theorem extends_ite {p p' q q' : Parser α} {c c' : Prop} [Decidable c] [Decidable c']
    (same : c ↔ c') (hp : Extends E R p p') (hq : Extends E R q q') :
    Extends E R (if c then p else q) (if c' then p' else q') := by
  by_cases h : c
  · rwa [if_pos h, if_pos (same.1 h)]
  · rwa [if_neg h, if_neg (mt same.2 h)]

theorem extendsAt_ite {p p' q q' : Parser α} {c c' : Prop} [Decidable c] [Decidable c']
    {t t' : Token} (same : c ↔ c') (hp : ExtendsAt E R t t' p p')
    (hq : ExtendsAt E R t t' q q') :
    ExtendsAt E R t t' (if c then p else q) (if c' then p' else q') := by
  by_cases h : c
  · rwa [if_pos h, if_pos (same.1 h)]
  · rwa [if_neg h, if_neg (mt same.2 h)]

/-- What looks at a token is extended if it is for every pair of tokens that may be seen. -/
theorem extends_peek_bind {f f' : Token → Parser β}
    (hf : ∀ t t', Extension.Sees t t' → ExtendsAt E Q t t' (f t) (f' t')) :
    Extends E Q (peek >>= f) (peek >>= f') := by
  intro k k' b last continues reading
  rw [peek_bind] at reading ⊢
  exact hf _ _ (sees_of_continues continues) continues rfl rfl reading

/-- Where the end of the text is a failure, only tokens of the text are looked at. -/
theorem extends_peek_bind_of_fails {f f' : Token → Parser β}
    (hf : ∀ t t', t.Alike t' → ExtendsAt E Q t t' (f t) (f' t'))
    (atEnd : ∀ t, t.kind = .endOfText → (f t).Fails) :
    Extends E Q (peek >>= f) (peek >>= f') := by
  refine extends_peek_bind fun t t' sees => ?_
  cases sees with
  | same alike => exact hf t t' alike
  | ended last more => exact (atEnd t last).extendsAt _ _ _

theorem extendsAt_peek_bind {f f' : Token → Parser β} {t t' : Token}
    (hf : ExtendsAt E Q t t' (f t) (f' t')) :
    ExtendsAt E Q t t' (peek >>= f) (peek >>= f') := by
  intro k k' b last continues there there' reading
  rw [peek_bind, there] at reading
  rw [peek_bind, there']
  exact hf continues there there' reading

/-- What reads a token is extended behind it. -/
theorem extendsAt_next_bind {f f' : Token → Parser β} {t t' : Token}
    (present : t.kind ≠ .endOfText) (hf : Extends E Q (f t) (f' t')) :
    ExtendsAt E Q t t' (next >>= f) (next >>= f') := by
  intro k k' b last continues there there' reading
  rw [next_bind, there] at reading
  rw [next_bind, there']
  exact hf (continues_drop continues (there ▸ present)) reading

/-- What reads a token is extended if it refuses the end of the text. -/
theorem extends_next_bind {f f' : Token → Parser β}
    (hf : ∀ t t', t.Alike t' → Extends E Q (f t) (f' t'))
    (atEnd : ∀ t, t.kind = .endOfText → (f t).Fails) :
    Extends E Q (next >>= f) (next >>= f') := by
  intro k k' b last continues reading
  have sees := sees_of_continues continues
  rw [next_bind] at reading ⊢
  by_cases present : (k.token E.context).kind = .endOfText
  · exact absurd reading (atEnd _ present _ _ _ _)
  · cases sees with
    | same alike => exact hf _ _ alike (continues_drop continues present) reading
    | ended last => exact absurd last present

/-- Whether a token of some kind is at the cursor is seen alike, since the longer text goes on with
the end of a statement. -/
theorem extends_sees_bind {kind : TokenKind} {f f' : Bool → Parser β}
    (text : kind ≠ .endOfText) (statement : kind ≠ .endOfStatement)
    (yes : ∀ t t', t.Alike t' → t.kind = kind → ExtendsAt E Q t t' (f true) (f' true))
    (no : Extends E Q (f false) (f' false)) :
    Extends E Q (sees kind >>= f) (sees kind >>= f') := by
  intro k k' b last continues reading
  rw [sees_bind] at reading ⊢
  cases sees_of_continues continues with
  | same alike =>
    rw [← alike.kind]
    by_cases same : (k.token E.context).kind = kind
    · rw [decide_eq_true same] at reading ⊢
      exact yes _ _ alike same continues rfl rfl reading
    · rw [decide_eq_false same] at reading ⊢
      exact no continues reading
  | ended ended more =>
    have other : (k'.token E.context').kind ≠ kind := by
      rintro rfl
      exact more.elim text statement
    rw [decide_eq_false (ended ▸ text.symm)] at reading
    rw [decide_eq_false other]
    exact no continues reading

/-- To expect a token is extended by expecting it. -/
theorem extends_expect (kind : TokenKind) (character : String) :
    Extends E Token.Alike (expect kind character) (expect kind character) := by
  refine extends_next_bind (fun t t' alike => ?_) fun t ended => ?_
  · rw [alike.kind]
    exact extends_ite Iff.rfl ((fails_fail _ _).extends _) <|
      extends_ite Iff.rfl (extends_pure alike) ((fails_fail _ _).extends _)
  · rw [if_pos ended]
    exact fails_fail _ _

/-- To note a name is extended by noting an alike one. -/
theorem extends_define {x x' : Expr} (h : x.Alike x') :
    Extends E (fun _ _ => True) (define x) (define x') := by
  intro k k' a after continues reading
  cases reading
  refine ⟨(), _, rfl, trivial, continues.rest, ?_⟩
  rw [← List.append_assoc]
  exact continues.functions.append (.cons h Expr.allAlike_nil)

/-- The same names are taken for those of functions. -/
theorem extends_isFunction {x x' : Expr} (h : x.Alike x') :
    Extends E Eq (isFunction x) (isFunction x') := by
  intro k k' a after continues reading
  cases reading
  refine ⟨_, _, rfl, ?_, continues⟩
  rw [← continues.functions.any h, List.any_append, E.known h]
  cases k.functions.any (· == x) <;> cases E.names.any (· == x) <;>
    cases E.context'.known x' <;> rfl

/-- Ends of statements are skipped alike, if there is anything behind them in the text. -/
theorem extends_skipEnds_bind {f f' : Unit → Parser β} (hf : Extends E Q (f ()) (f' ()))
    (atEnd : ∀ context functions b after, f () context ⟨[], functions⟩ ≠ .done b after) :
    Extends E Q (skipEnds >>= f) (skipEnds >>= f') := by
  intro k k' b last continues reading
  obtain ⟨rest, functions⟩ := k
  obtain ⟨rest', functions'⟩ := k'
  have reading : f () E.context ⟨rest.dropWhile (·.kind = .endOfStatement), functions⟩ =
      .done b last := reading
  have present : rest.dropWhile (·.kind = .endOfStatement) ≠ [] := by
    intro none
    rw [none] at reading
    exact atEnd _ _ _ _ reading
  have skipped (ts : List Token) : (ts.dropWhile (·.kind = .endOfStatement)).map Token.unplaced =
      (ts.map Token.unplaced).dropWhile (·.kind = .endOfStatement) := by
    rw [List.dropWhile_map]
    rfl
  have continues : E.Continues ⟨rest.dropWhile (·.kind = .endOfStatement), functions⟩
      ⟨rest'.dropWhile (·.kind = .endOfStatement), functions'⟩ := by
    refine ⟨?_, continues.functions⟩
    show List.map _ (rest.dropWhile _ ++ _) = List.map _ (rest'.dropWhile _)
    rw [skipped rest', ← continues.rest, ← skipped, List.dropWhile_append,
      if_neg (mt List.isEmpty_iff.1 present)]
  exact hf continues reading

end Parser

end TexAlgebra
