import TexAlgebra.Proofs.Grammar.Local
import TexAlgebra.Proofs.Grammar.Noted
import TexAlgebra.Proofs.Grammar.Reading
/-!
# Variables and their subscripts

The grammar of variables, rule by rule: a variable is a name with its subscripts
(`Grammar.IsVariable`), each of them a name, a number or a group behind its mark. A group holds
expressions, with commas and ends of statements anywhere between them (`Grammar.IsItems`).

For every rule there are two lemmas: what was read is of the form that the rule gives
(`isVariable_of_done`), and what has the form is read (`IsVariable.done`). An expression in a group
is one by itself: the token behind it breaks off what stands before it (`isExpression_iff`).
-/

namespace TexAlgebra

namespace Grammar

open TexAlgebra.Parser

/-! ## Pieces -/

/-- What tokens may stand for, where some functions are defined before them and some behind them. -/
abbrev Piece (α : Type) := List Expr → List Token → α → List Expr → Prop

variable {context : Context}

/-- Whether some tokens are an expression: all of them are read for it. -/
def IsExpression (context : Context) : Piece Expr := fun fs ts e fs' =>
  Parser.expression context ⟨ts, fs⟩ = .done e ⟨[], fs'⟩

/-- Whether some tokens are the contents of a group behind a subscript mark: expressions, each as
long as it can be, with commas and ends of statements anywhere between them. -/
inductive IsItems (context : Context) : Piece (List Expr)
  | nil {fs : List Expr} : IsItems context fs [] [] fs
  | skip {fs fs' : List Expr} {t : Token} {ts : List Token} {es : List Expr}
      (kind : t.kind = .comma ∨ t.kind = .endOfStatement) (later : IsItems context fs ts es fs') :
      IsItems context fs (t :: ts) es fs'
  | cons {fs names fs' : List Expr} {ts us : List Token} {e : Expr} {es : List Expr}
      (first : Parser.expression context ⟨ts, fs⟩ = .done e ⟨us, names⟩)
      (later : IsItems context names us es fs') : IsItems context fs ts (e :: es) fs'

/-- Whether some tokens are subscripts. -/
inductive IsSubscripts (context : Context) : Piece (List Expr)
  | nil {fs : List Expr} : IsSubscripts context fs [] [] fs
  | name {fs fs' : List Expr} {mark t : Token} {ts : List Token} {xs : List Expr}
      (marked : mark.kind = .subscript) (kind : t.kind = .identifier)
      (later : IsSubscripts context fs ts xs fs') :
      IsSubscripts context fs (mark :: t :: ts) (.var t.text [] (some t) :: xs) fs'
  | number {fs fs' : List Expr} {mark t : Token} {ts : List Token} {xs : List Expr}
      (marked : mark.kind = .subscript) (kind : t.kind = .number)
      (later : IsSubscripts context fs ts xs fs') :
      IsSubscripts context fs (mark :: t :: ts) (.number t.text (some t) :: xs) fs'
  | group {fs names fs' : List Expr} {mark opening closing : Token} {ts us : List Token}
      {es xs : List Expr} (marked : mark.kind = .subscript) (opens : opening.kind = .braceOpen)
      (inside : IsItems context fs ts es names) (closes : closing.kind = .braceClose)
      (later : IsSubscripts context names us xs fs') :
      IsSubscripts context fs (mark :: opening :: (ts ++ closing :: us)) (es ++ xs) fs'

/-- Whether some tokens are a variable. -/
inductive IsVariable (context : Context) : Piece Expr
  | mk {fs fs' : List Expr} {t : Token} {ts : List Token} {xs : List Expr}
      (kind : t.kind = .identifier) (subscripts : IsSubscripts context fs ts xs fs') :
      IsVariable context fs (t :: ts) (.var t.text xs (some t)) fs'

/-! ## Expressions -/

theorem expression_eq_step : Parser.expression = expressionStep full :=
  congrArg expression full_eq_step

theorem token_cons (t : Token) (ts : List Token) (fs : List Expr) :
    Cursor.token context ⟨t :: ts, fs⟩ = t := rfl

/-- What was expected is the token that was read. -/
theorem done_of_expect {kind : TokenKind} {character : String} {t : Token} {ts us : List Token}
    {fs fs' : List Expr} (h : expect kind character context ⟨ts, fs⟩ = .done t ⟨us, fs'⟩) :
    ts = t :: us ∧ t.kind = kind ∧ fs' = fs := by
  obtain ⟨split, same⟩ := rest_of_expect h
  obtain ⟨-, -, -, left⟩ := expect_done h
  exact ⟨split, same, congrArg Cursor.functions left⟩

/-- A token that is expected is read. -/
theorem expect_of_kind {kind : TokenKind} {character : String} {t : Token} {ts : List Token}
    {fs : List Expr} (same : t.kind = kind) (text : kind ≠ .endOfText) :
    expect kind character context ⟨t :: ts, fs⟩ = .done t ⟨ts, fs⟩ := by
  rw [expect, next_bind, token_cons, if_neg (same.trans_ne text), if_pos same]
  rfl

theorem of_mem_head? {P : Token → Prop} {t : Token} {ts : List Token} (h : P t) :
    ∀ u ∈ (t :: ts).head?, P u := by
  rintro _ ⟨⟩
  exact h

/-- An expression in a text is one by itself, if a token follows that breaks off. -/
theorem isExpression_iff {fs fs' : List Expr} {ts rest : List Token} {e : Expr}
    (breaks : ∀ t ∈ rest.head?, t.Breaks) :
    Parser.expression context ⟨ts ++ rest, fs⟩ = .done e ⟨rest, fs'⟩ ↔
      IsExpression context fs ts e fs' :=
  isLocal_expression.localAt ts context [] rest fs fs' e fun _ => breaks

/-- Commas and what closes break off. -/
theorem breaks_of_kind {t : Token}
    (h : t.kind = .comma ∨ t.kind = .parenClose ∨ t.kind = .braceClose) : t.Breaks := by
  rcases h with h | h | h
  all_goals exact ⟨by rw [operatorAt?, h], by simp [h], by simp [h]⟩

/-! ## Groups behind a subscript mark -/

/-- A closing brace ends the items. -/
theorem full_items_braceClose {commas : Bool} {fs : List Expr} {t : Token} {ts : List Token}
    (kind : t.kind = .braceClose) :
    full.items commas context ⟨t :: ts, fs⟩ = .done [] ⟨ts, fs⟩ := by
  obtain ⟨_, place, text⟩ := t
  cases kind
  rw [full_items]
  rfl

/-- Commas and ends of statements between items are skipped. -/
theorem full_items_skip {fs : List Expr} {t : Token} {ts : List Token}
    (kind : t.kind = .comma ∨ t.kind = .endOfStatement) :
    full.items true context ⟨t :: ts, fs⟩ = full.items true context ⟨ts, fs⟩ := by
  obtain ⟨_, place, text⟩ := t
  have start (rest : List Token) : full.items true context ⟨rest, fs⟩ =
      itemsStep full true context ⟨rest, fs⟩ := by rw [← full_items]
  rcases kind with kind | kind
  · cases kind
    exact start _
  · cases kind
    rw [start, start]
    rfl

/-- What the items of a group start with: the end of the group, a token between items, or an
item. -/
theorem items_cases {fs fs' : List Expr} {ts rest : List Token} {es : List Expr}
    (h : full.items true context ⟨ts, fs⟩ = .done es ⟨rest, fs'⟩) :
    (∃ t, t.kind = .braceClose ∧ ts = t :: rest ∧ es = [] ∧ fs' = fs) ∨
    (∃ t us, (t.kind = .comma ∨ t.kind = .endOfStatement) ∧ ts = t :: us ∧
      full.items true context ⟨us, fs⟩ = .done es ⟨rest, fs'⟩) ∨
    (∃ e us names later, Parser.expression context ⟨ts, fs⟩ = .done e ⟨us, names⟩ ∧
      full.items true context ⟨us, names⟩ = .done later ⟨rest, fs'⟩ ∧ es = e :: later) := by
  cases ts with
  | nil =>
    rw [full_items] at h
    cases h
  | cons t us =>
    by_cases skipped : t.kind = .comma ∨ t.kind = .endOfStatement
    · rw [full_items_skip skipped] at h
      exact .inr (.inl ⟨t, us, skipped, rfl, h⟩)
    by_cases closes : t.kind = .braceClose
    · rw [full_items_braceClose closes] at h
      cases h
      exact .inl ⟨t, closes, rfl, rfl, rfl⟩
    have kept : (t :: us).dropWhile (·.kind = .endOfStatement) = t :: us :=
      List.dropWhile_cons_of_neg fun ended => skipped (.inr (of_decide_eq_true ended))
    have start : skipEnds context ⟨t :: us, fs⟩ = .done () ⟨t :: us, fs⟩ := by
      rw [skipEnds, kept]
    have other : ¬(true && decide (t.kind = .comma)) = true := fun comma =>
      skipped (.inl (of_decide_eq_true comma))
    rw [full_items, itemsStep, bind_of_done start, peek_bind, token_cons, if_neg closes,
      if_neg other, ← expression_eq_step] at h
    split at h
    · cases h
    obtain ⟨e, ⟨middle, names⟩, first, h⟩ := done_of_bind h
    obtain ⟨later, after, read, h⟩ := done_of_bind h
    cases h
    exact .inr (.inr ⟨e, middle, names, later, first, read, rfl⟩)

/-- The items of a group are read up to its closing brace. -/
theorem isItems_of_done {fs fs' : List Expr} {ts rest : List Token} {es : List Expr}
    (h : full.items true context ⟨ts, fs⟩ = .done es ⟨rest, fs'⟩) :
    ∃ inside closing, ts = inside ++ closing :: rest ∧ closing.kind = .braceClose ∧
      IsItems context fs inside es fs' := by
  rcases items_cases h with ⟨t, closes, rfl, rfl, rfl⟩ | ⟨t, us, kind, rfl, read⟩ |
    ⟨e, us, names, later, first, read, rfl⟩
  · exact ⟨[], t, rfl, closes, .nil⟩
  · obtain ⟨inside, closing, rfl, closes, items⟩ := isItems_of_done read
    exact ⟨t :: inside, closing, rfl, closes, .skip kind items⟩
  · have fewer := consumes_expression _ _ _ _ first
    obtain ⟨inside, closing, rfl, closes, items⟩ := isItems_of_done read
    -- the item is read from the group alone, for the brace breaks off what stands before it
    obtain ⟨taken, rfl⟩ := keeps_expression.suffix first
    rw [← List.append_assoc] at first
    refine ⟨taken ++ inside, closing, (List.append_assoc _ _ _).symm, closes, .cons ?_ items⟩
    exact (isLocal_expression.localAt _ _ inside _ _ _ _ fun _ =>
      of_mem_head? (breaks_of_kind (.inr (.inr closes)))).1 first
termination_by ts.length

/-- Items of the form that the rule gives are read up to the closing brace. -/
theorem IsItems.done {fs fs' : List Expr} {inside rest : List Token} {es : List Expr}
    {closing : Token} (h : IsItems context fs inside es fs') (closes : closing.kind = .braceClose) :
    full.items true context ⟨inside ++ closing :: rest, fs⟩ = .done es ⟨rest, fs'⟩ := by
  induction h with
  | nil => exact full_items_braceClose closes
  | skip kind later ih => rw [List.cons_append, full_items_skip kind, ih]
  | @cons fs names fs' ts us e es first later ih =>
    have read : Parser.expression context ⟨ts ++ closing :: rest, fs⟩ =
        .done e ⟨us ++ closing :: rest, names⟩ :=
      (isLocal_expression.localAt _ _ us _ _ _ _ fun _ =>
        of_mem_head? (breaks_of_kind (.inr (.inr closes)))).2 first
    rw [Parser.expression_eq_full] at read
    rw [full_items_of_opens (opens_of_expression read), bind_of_done read, bind_of_done ih]
    rfl

/-! ## Variables -/

/-- Without a subscript mark there are no subscripts. -/
theorem full_subscripts_of_ne {fs : List Expr} {ts : List Token}
    (ends : ∀ t ∈ ts.head?, t.kind ≠ .subscript) :
    full.subscripts context ⟨ts, fs⟩ = .done [] ⟨ts, fs⟩ := by
  have unseen : (Cursor.token context ⟨ts, fs⟩).kind ≠ .subscript := by
    cases ts with
    | nil => nofun
    | cons t ts => exact ends t rfl
  rw [full_subscripts, subscriptsStep, sees_bind, decide_eq_false unseen]
  rfl

/-- A name behind the mark is a subscript. -/
theorem full_subscripts_name {fs : List Expr} {mark t : Token} {ts : List Token}
    (marked : mark.kind = .subscript) (kind : t.kind = .identifier) :
    full.subscripts context ⟨mark :: t :: ts, fs⟩ =
      (do return .var t.text [] (some t) :: (← full.subscripts) : Parser (List Expr))
        context ⟨ts, fs⟩ := by
  obtain ⟨_, place, text⟩ := mark
  obtain ⟨_, place', text'⟩ := t
  cases marked
  cases kind
  exact (congrFun₂ full_subscripts _ _).trans rfl

/-- A number behind the mark is a subscript. -/
theorem full_subscripts_number {fs : List Expr} {mark t : Token} {ts : List Token}
    (marked : mark.kind = .subscript) (kind : t.kind = .number) :
    full.subscripts context ⟨mark :: t :: ts, fs⟩ =
      (do return .number t.text (some t) :: (← full.subscripts) : Parser (List Expr))
        context ⟨ts, fs⟩ := by
  obtain ⟨_, place, text⟩ := mark
  obtain ⟨_, place', text'⟩ := t
  cases marked
  cases kind
  exact (congrFun₂ full_subscripts _ _).trans rfl

/-- The items of a group behind the mark are subscripts. -/
theorem full_subscripts_group {fs : List Expr} {mark t : Token} {ts : List Token}
    (marked : mark.kind = .subscript) (kind : t.kind = .braceOpen) :
    full.subscripts context ⟨mark :: t :: ts, fs⟩ =
      (do
        let items ← full.items true
        return items ++ (← full.subscripts) : Parser (List Expr)) context ⟨ts, fs⟩ := by
  obtain ⟨_, place, text⟩ := mark
  obtain ⟨_, place', text'⟩ := t
  cases marked
  cases kind
  exact (congrFun₂ full_subscripts _ _).trans rfl

/-- Behind a subscript mark stands a name, a number or a group. -/
theorem kind_of_subscripts {mark : Token} {ts : List Token} {fs xs : List Expr} {after : Cursor}
    (marked : mark.kind = .subscript)
    (h : full.subscripts context ⟨mark :: ts, fs⟩ = .done xs after) :
    ∃ t us, ts = t :: us ∧ (t.kind = .identifier ∨ t.kind = .number ∨ t.kind = .braceOpen) := by
  have start := (congrFun₂ full_subscripts context ⟨mark :: ts, fs⟩).symm.trans h
  obtain ⟨_, place, text⟩ := mark
  cases marked
  cases ts with
  | nil => cases start
  | cons t us =>
    refine ⟨t, us, rfl, ?_⟩
    obtain ⟨kind, place', text'⟩ := t
    cases kind with
    | identifier => exact .inl rfl
    | number => exact .inr (.inl rfl)
    | braceOpen => exact .inr (.inr rfl)
    | _ => cases start

/-- Subscripts are read as far as there are marks. -/
theorem isSubscripts_of_done {fs fs' : List Expr} {ts rest : List Token} {xs : List Expr}
    (h : full.subscripts context ⟨ts, fs⟩ = .done xs ⟨rest, fs'⟩) :
    ∃ us, ts = us ++ rest ∧ (∀ t ∈ rest.head?, t.kind ≠ .subscript) ∧
      IsSubscripts context fs us xs fs' := by
  by_cases ends : ∀ t ∈ ts.head?, t.kind ≠ .subscript
  · rw [full_subscripts_of_ne ends] at h
    cases h
    exact ⟨[], rfl, ends, .nil⟩
  obtain ⟨mark, first, marked⟩ : ∃ mark ∈ ts.head?, mark.kind = .subscript := by
    simpa using ends
  obtain ⟨ts, rfl⟩ := List.head?_eq_some_iff.1 first
  obtain ⟨t, us, rfl, kind | kind | kind⟩ := kind_of_subscripts marked h
  · rw [full_subscripts_name marked kind] at h
    obtain ⟨later, ⟨_, _⟩, read, h⟩ := done_of_bind h
    cases h
    obtain ⟨us, rfl, ends, later⟩ := isSubscripts_of_done read
    exact ⟨mark :: t :: us, rfl, ends, .name marked kind later⟩
  · rw [full_subscripts_number marked kind] at h
    obtain ⟨later, ⟨_, _⟩, read, h⟩ := done_of_bind h
    cases h
    obtain ⟨us, rfl, ends, later⟩ := isSubscripts_of_done read
    exact ⟨mark :: t :: us, rfl, ends, .number marked kind later⟩
  · rw [full_subscripts_group marked kind] at h
    obtain ⟨items, ⟨middle, names⟩, inside, h⟩ := done_of_bind h
    obtain ⟨later, ⟨_, _⟩, read, h⟩ := done_of_bind h
    cases h
    obtain ⟨inner, closing, rfl, closes, items⟩ := isItems_of_done inside
    obtain ⟨us, rfl, ends, later⟩ := isSubscripts_of_done read
    refine ⟨mark :: t :: (inner ++ closing :: us), ?_, ends, .group marked kind items closes later⟩
    simp only [List.cons_append, List.append_assoc]
termination_by ts.length
decreasing_by all_goals subst_vars; simp only [List.length_cons, List.length_append]; omega

/-- Subscripts of the form that the rules give are read. -/
theorem IsSubscripts.done {fs fs' : List Expr} {us rest : List Token} {xs : List Expr}
    (h : IsSubscripts context fs us xs fs') (ends : ∀ t ∈ rest.head?, t.kind ≠ .subscript) :
    full.subscripts context ⟨us ++ rest, fs⟩ = .done xs ⟨rest, fs'⟩ := by
  induction h with
  | nil => exact full_subscripts_of_ne ends
  | name marked kind later ih =>
    rw [List.cons_append, List.cons_append, full_subscripts_name marked kind, bind_of_done ih]
    rfl
  | number marked kind later ih =>
    rw [List.cons_append, List.cons_append, full_subscripts_number marked kind, bind_of_done ih]
    rfl
  | group marked opens inside closes later ih =>
    rw [List.cons_append, List.cons_append, List.append_assoc, full_subscripts_group marked opens,
      List.cons_append, bind_of_done (inside.done closes), bind_of_done ih]
    rfl

/-- A name is read with its subscripts. -/
theorem isVariable_of_done {fs fs' : List Expr} {t : Token} {ts rest : List Token} {x : Expr}
    (kind : t.kind = .identifier)
    (h : identifier full context ⟨t :: ts, fs⟩ = .done x ⟨rest, fs'⟩) :
    ∃ us, ts = us ++ rest ∧ (∀ u ∈ rest.head?, u.kind ≠ .subscript) ∧
      IsVariable context fs (t :: us) x fs' := by
  rw [identifier, next_bind] at h
  obtain ⟨xs, ⟨_, _⟩, read, h⟩ := done_of_bind h
  cases h
  obtain ⟨us, split, ends, subscripts⟩ := isSubscripts_of_done read
  exact ⟨us, split, ends, .mk kind subscripts⟩

/-- A variable of the form that the rule gives is read. -/
theorem IsVariable.done {fs fs' : List Expr} {us rest : List Token} {x : Expr}
    (h : IsVariable context fs us x fs') (ends : ∀ t ∈ rest.head?, t.kind ≠ .subscript) :
    identifier full context ⟨us ++ rest, fs⟩ = .done x ⟨rest, fs'⟩ := by
  obtain ⟨kind, subscripts⟩ := h
  rw [identifier, next_bind, List.cons_append, List.drop_one, List.tail_cons,
    bind_of_done (subscripts.done ends)]
  rfl

/-- A variable starts with its name. -/
theorem IsVariable.kind_head {fs fs' : List Expr} {t : Token} {ts : List Token} {x : Expr}
    (h : IsVariable context fs (t :: ts) x fs') : t.kind = .identifier := by
  cases h with
  | mk kind _ => exact kind

end Grammar

end TexAlgebra
