import TexAlgebra.Proofs.Grammar.Variables
/-!
# Lists of parameters and of arguments

The grammar of lists, rule by rule:

* a list is nothing, or elements with single commas between them (`Grammar.IsList`), where every
  element is told from its own tokens;
* a prototype is a variable and a list of variables in parentheses, and a call is the function and a
  list of expressions in parentheses.

`Grammar.prototype_and_call_iff` compares this with what is read. Calls are read by these rules and
by no others. So are prototypes, but for one thing: behind the last parameter one more comma may
stand (`Grammar.IsTrailed`).
-/

namespace TexAlgebra

namespace Grammar

open TexAlgebra.Parser

variable {context : Context}

/-! ## Lists -/

/-- Whether some tokens are elements with single commas between them. -/
inductive IsSeparated (Element : Piece Expr) : Piece (List Expr)
  | one {fs fs' : List Expr} {ts : List Token} {e : Expr} (first : Element fs ts e fs') :
      IsSeparated Element fs ts [e] fs'
  | cons {fs names fs' : List Expr} {ts us : List Token} {comma : Token} {e : Expr}
      {es : List Expr} (first : Element fs ts e names) (kind : comma.kind = .comma)
      (later : IsSeparated Element names us es fs') :
      IsSeparated Element fs (ts ++ comma :: us) (e :: es) fs'

/-- Whether some tokens are a list: nothing, or elements with single commas between them. -/
inductive IsList (Element : Piece Expr) : Piece (List Expr)
  | nil {fs : List Expr} : IsList Element fs [] [] fs
  | separated {fs fs' : List Expr} {ts : List Token} {es : List Expr}
      (h : IsSeparated Element fs ts es fs') : IsList Element fs ts es fs'

/-- Whether some tokens are elements with single commas between them and a comma behind the last. -/
inductive IsTrailed (Element : Piece Expr) : Piece (List Expr)
  | mk {fs fs' : List Expr} {ts : List Token} {comma : Token} {es : List Expr}
      (h : IsSeparated Element fs ts es fs') (kind : comma.kind = .comma) :
      IsTrailed Element fs (ts ++ [comma]) es fs'

/-- Whether some tokens start with a list in parentheses, behind which `rest` is left. -/
inductive StartsWithList (Inside : Piece (List Expr)) (rest : List Token) : Piece (List Expr)
  | mk {fs fs' : List Expr} {opening closing : Token} {inside : List Token} {es : List Expr}
      (opens : opening.kind = .parenOpen) (list : Inside fs inside es fs')
      (closes : closing.kind = .parenClose) :
      StartsWithList Inside rest fs (opening :: (inside ++ closing :: rest)) es fs'

/-- Whether some tokens start with a variable and a list in parentheses, behind which `rest` is
left. The prototype keeps its first token. -/
inductive StartsWithPrototype (context : Context) (Inside : Piece (List Expr)) (rest : List Token) :
    Piece (Expr × List Expr × Token)
  | mk {fs names fs' : List Expr} {head : Token} {ts us : List Token} {name : Expr}
      {parameters : List Expr} (named : IsVariable context fs (head :: ts) name names)
      (list : StartsWithList Inside rest names us parameters fs') :
      StartsWithPrototype context Inside rest fs (head :: ts ++ us) (name, parameters, head) fs'

/-- A call of `callee`, parentheses included. -/
def call (again : Grammar) (callee : Expr) : Parser Expr := do
  return .call callee (← callArguments again) callee.token

/-! ## Elements one after the other -/

/-- Whether `f` goes on with a list whose elements `loop` reads, behind the element `e` and from the
token that it is given: a closing parenthesis ends the list, behind a comma more elements are read,
and anything else is refused. -/
structure GoesOnBehind (loop : Parser (List Expr)) (e : Expr) (f : Token → Parser (List Expr)) :
    Prop where
  ended : ∀ t, t.kind = .parenClose → f t = pure [e]
  comma : ∀ t, t.kind = .comma → f t = (do return e :: (← loop))
  other : ∀ t, t.kind ≠ .parenClose → t.kind ≠ .comma → (f t).Fails

/-- Whether a parser reads an element and then goes on, if the element is the last one or a comma
follows. -/
def ReadsElements (context : Context) (Element : Piece Expr) (loop : Parser (List Expr)) : Prop :=
  ∀ {fs names : List Expr} {ts rest : List Token} {separator : Token} {e : Expr},
    Element fs ts e names → separator.kind = .parenClose ∨ separator.kind = .comma →
      ∃ f, GoesOnBehind loop e f ∧
        loop context ⟨ts ++ separator :: rest, fs⟩ = (next >>= f) context ⟨separator :: rest, names⟩

section

variable {Element : Piece Expr} {loop : Parser (List Expr)} {fs fs' : List Expr}
  {ts rest : List Token} {es : List Expr}

/-- What stands behind an element. -/
theorem GoesOnBehind.cases {e : Expr} {f : Token → Parser (List Expr)} (h : GoesOnBehind loop e f)
    (read : (next >>= f) context ⟨ts, fs⟩ = .done es ⟨rest, fs'⟩) :
    ∃ separator us, ts = separator :: us ∧
      (separator.kind = .parenClose ∧ es = [e] ∧ us = rest ∧ fs' = fs ∨
        ∃ later, separator.kind = .comma ∧ loop context ⟨us, fs⟩ = .done later ⟨rest, fs'⟩ ∧
          es = e :: later) := by
  rw [next_bind] at read
  cases ts with
  | nil =>
    have text : (Cursor.token context ⟨[], fs⟩).kind = .endOfText := rfl
    exact absurd read (h.other _ (text.trans_ne nofun) (text.trans_ne nofun) _ _ _ _)
  | cons separator us =>
    rw [token_cons] at read
    refine ⟨separator, us, rfl, ?_⟩
    by_cases closes : separator.kind = .parenClose
    · rw [h.ended _ closes] at read
      cases read
      exact .inl ⟨closes, rfl, rfl, rfl⟩
    by_cases comma : separator.kind = .comma
    · rw [h.comma _ comma] at read
      obtain ⟨later, ⟨_, _⟩, read, ended⟩ := done_of_bind read
      cases ended
      exact .inr ⟨later, comma, read, rfl⟩
    · exact absurd read (h.other _ closes comma _ _ _ _)

/-- A closing parenthesis ends the list. -/
theorem ReadsElements.last {e : Expr} {closing : Token} (reads : ReadsElements context Element loop)
    (h : Element fs ts e fs') (closes : closing.kind = .parenClose) :
    loop context ⟨ts ++ closing :: rest, fs⟩ = .done [e] ⟨rest, fs'⟩ := by
  obtain ⟨f, goes, start⟩ := reads h (.inl closes)
  rw [start, next_bind, token_cons, goes.ended _ closes]
  rfl

/-- Behind a comma the list goes on. -/
theorem ReadsElements.next {e : Expr} {comma : Token} (reads : ReadsElements context Element loop)
    (h : Element fs ts e fs') (kind : comma.kind = .comma) :
    loop context ⟨ts ++ comma :: rest, fs⟩ = (do return e :: (← loop)) context ⟨rest, fs'⟩ := by
  obtain ⟨f, goes, start⟩ := reads h (.inr kind)
  rw [start, next_bind, token_cons, goes.comma _ kind]
  rfl

/-- Elements with single commas between them are read. -/
theorem IsSeparated.done (h : IsSeparated Element fs ts es fs')
    (reads : ReadsElements context Element loop) {closing : Token}
    (closes : closing.kind = .parenClose) :
    loop context ⟨ts ++ closing :: rest, fs⟩ = .done es ⟨rest, fs'⟩ := by
  induction h with
  | one first => exact reads.last first closes
  | cons first kind later ih =>
    rw [List.append_assoc, List.cons_append, reads.next first kind, bind_of_done ih]
    rfl

/-- What comes behind one more comma is read as well. -/
theorem IsSeparated.append (h : IsSeparated Element fs ts es fs')
    (reads : ReadsElements context Element loop) {comma : Token} (kind : comma.kind = .comma)
    {later : List Expr} {after : Cursor} (read : loop context ⟨rest, fs'⟩ = .done later after) :
    loop context ⟨ts ++ comma :: rest, fs⟩ = .done (es ++ later) after := by
  induction h with
  | one first =>
    rw [reads.next first kind, bind_of_done read]
    rfl
  | cons first kind' _ ih =>
    rw [List.append_assoc, List.cons_append, reads.next first kind', bind_of_done (ih read)]
    rfl

end

/-! ## Parameters -/

theorem full_parameters : full.parameters = parametersStep full :=
  congrArg parameters full_eq_step

/-- A closing parenthesis ends the parameters, also behind a comma. -/
theorem full_parameters_of_parenClose {fs : List Expr} {closing : Token} {rest : List Token}
    (closes : closing.kind = .parenClose) :
    full.parameters context ⟨closing :: rest, fs⟩ = .done [] ⟨rest, fs⟩ := by
  obtain ⟨_, place, text⟩ := closing
  cases closes
  exact (congrFun₂ full_parameters _ _).trans rfl

/-- Behind a variable the list of parameters goes on or ends. -/
theorem goesOnBehind_parameters {fs names : List Expr} {ts rest : List Token} {x : Expr}
    (h : IsVariable context fs ts x names) (ends : ∀ t ∈ rest.head?, t.kind ≠ .subscript) :
    ∃ f, GoesOnBehind full.parameters x f ∧
      full.parameters context ⟨ts ++ rest, fs⟩ = (next >>= f) context ⟨rest, names⟩ := by
  have start := congrFun₂ full_parameters context ⟨ts ++ rest, fs⟩
  have kind : (Cursor.token context ⟨ts ++ rest, fs⟩).kind = .identifier := by
    obtain ⟨kind, -⟩ := h
    exact kind
  rw [parametersStep, sees_bind, decide_eq_true kind] at start
  refine ⟨_, ⟨fun t closes => ?_, fun t comma => ?_, fun t closes comma => ?_⟩,
    start.trans (bind_of_done (h.done ends) _)⟩
  · rw [closes]
  · rw [comma]
  · split
    · next kind => exact absurd kind closes
    · next kind => exact absurd kind comma
    · exact fails_fail _ _

/-- The loop for parameters reads variables. -/
theorem readsElements_parameters :
    ReadsElements context (IsVariable context) full.parameters := by
  intro fs names ts rest separator x h kind
  refine goesOnBehind_parameters h (of_mem_head? ?_)
  rcases kind with kind | kind
  · exact kind.trans_ne nofun
  · exact kind.trans_ne nofun

/-- What parameters start with: the end of the list, or a variable and what goes on behind it. -/
theorem parameters_cases {fs fs' : List Expr} {ts rest : List Token} {xs : List Expr}
    (h : full.parameters context ⟨ts, fs⟩ = .done xs ⟨rest, fs'⟩) :
    (∃ closing, closing.kind = .parenClose ∧ ts = closing :: rest ∧ xs = [] ∧ fs' = fs) ∨
    ∃ vs x names separator us, IsVariable context fs vs x names ∧ ts = vs ++ separator :: us ∧
      (separator.kind = .parenClose ∧ xs = [x] ∧ us = rest ∧ fs' = names ∨
        ∃ later, separator.kind = .comma ∧
          full.parameters context ⟨us, names⟩ = .done later ⟨rest, fs'⟩ ∧ xs = x :: later) := by
  have start := (congrFun₂ full_parameters context ⟨ts, fs⟩).symm.trans h
  rw [parametersStep, sees_bind] at start
  by_cases kind : (Cursor.token context ⟨ts, fs⟩).kind = .identifier
  · rw [decide_eq_true kind] at start
    obtain ⟨x, ⟨middle, names⟩, read, -⟩ := done_of_bind start
    cases ts with
    | nil => cases kind
    | cons t ts =>
      rw [token_cons] at kind
      obtain ⟨us, rfl, ends, named⟩ := isVariable_of_done kind read
      obtain ⟨f, goes, onward⟩ := goesOnBehind_parameters named ends
      obtain ⟨separator, later, rfl, behind⟩ := goes.cases (onward.symm.trans h)
      exact .inr ⟨t :: us, x, names, separator, later, named, rfl, behind⟩
  · rw [decide_eq_false kind] at start
    obtain ⟨closing, ⟨_, _⟩, read, ended⟩ := done_of_bind start
    cases ended
    obtain ⟨rfl, closes, rfl⟩ := done_of_expect read
    exact .inl ⟨closing, closes, rfl, rfl, rfl⟩

/-- Parameters are read up to the closing parenthesis. Where the last of them has a comma behind it,
nothing stands between that and the parenthesis. -/
theorem isParameters_of_done {fs fs' : List Expr} {ts rest : List Token} {xs : List Expr}
    (h : full.parameters context ⟨ts, fs⟩ = .done xs ⟨rest, fs'⟩) :
    ∃ inside closing, ts = inside ++ closing :: rest ∧ closing.kind = .parenClose ∧
      (IsList (IsVariable context) fs inside xs fs' ∨
        IsTrailed (IsVariable context) fs inside xs fs') := by
  rcases parameters_cases h with ⟨closing, closes, rfl, rfl, rfl⟩ |
    ⟨vs, x, names, separator, us, named, rfl, ⟨closes, rfl, rfl, rfl⟩ | ⟨later, comma, read, rfl⟩⟩
  · exact ⟨[], closing, rfl, closes, .inl .nil⟩
  · exact ⟨vs, separator, rfl, closes, .inl (.separated (.one named))⟩
  · obtain ⟨inside, closing, rfl, closes, list | trailed⟩ := isParameters_of_done read
    · cases list with
      | nil => exact ⟨vs ++ [separator], closing, by simp, closes, .inr (.mk (.one named) comma)⟩
      | separated list =>
        exact ⟨vs ++ separator :: inside, closing, by simp, closes,
          .inl (.separated (.cons named comma list))⟩
    · cases trailed with
      | @mk _ _ ts comma' _ list kind =>
        refine ⟨(vs ++ separator :: ts) ++ [comma'], closing, by simp, closes, .inr (.mk ?_ kind)⟩
        exact .cons named comma list
termination_by ts.length
decreasing_by all_goals subst_vars; simp only [List.length_cons, List.length_append]; omega

/-- A list of variables is read, with or without a comma at its end. -/
theorem parameters_of_list {fs fs' : List Expr} {inside rest : List Token} {closing : Token}
    {xs : List Expr} (closes : closing.kind = .parenClose)
    (h : IsList (IsVariable context) fs inside xs fs' ∨
      IsTrailed (IsVariable context) fs inside xs fs') :
    full.parameters context ⟨inside ++ closing :: rest, fs⟩ = .done xs ⟨rest, fs'⟩ := by
  rcases h with list | trailed
  · cases list with
    | nil => exact full_parameters_of_parenClose closes
    | separated list => exact list.done readsElements_parameters closes
  · cases trailed with
    | mk list comma =>
      have ended := @full_parameters_of_parenClose context fs' closing rest closes
      have read := list.append readsElements_parameters comma ended
      rw [List.append_nil] at read
      rw [List.append_assoc]
      exact read

/-! ## Arguments -/

theorem full_arguments : full.arguments = argumentsStep full := congrArg arguments full_eq_step

/-- Behind an expression the list of arguments goes on or ends. -/
theorem goesOnBehind_arguments {fs names : List Expr} {ts rest : List Token} {e : Expr}
    (h : expressionStep full context ⟨ts, fs⟩ = .done e ⟨rest, names⟩) :
    ∃ f, GoesOnBehind full.arguments e f ∧
      full.arguments context ⟨ts, fs⟩ = (next >>= f) context ⟨rest, names⟩ := by
  have start := congrFun₂ full_arguments context ⟨ts, fs⟩
  refine ⟨_, ⟨fun t closes => ?_, fun t comma => ?_, fun t closes comma => ?_⟩,
    start.trans (bind_of_done h _)⟩
  · rw [closes]
  · rw [comma]
  · split
    · next kind => exact absurd kind closes
    · next kind => exact absurd kind comma
    · exact fails_fail _ _
    · exact fails_fail _ _

/-- The loop for arguments reads expressions. -/
theorem readsElements_arguments :
    ReadsElements context (IsExpression context) full.arguments := by
  intro fs names ts rest separator e h kind
  have breaks : separator.Breaks := breaks_of_kind (kind.symm.imp_right .inl)
  have first := (isExpression_iff (@of_mem_head? _ _ rest breaks)).2 h
  rw [expression_eq_step] at first
  exact goesOnBehind_arguments first

/-- What arguments start with: an expression and what goes on behind it. -/
theorem arguments_cases {fs fs' : List Expr} {ts rest : List Token} {es : List Expr}
    (h : full.arguments context ⟨ts, fs⟩ = .done es ⟨rest, fs'⟩) :
    ∃ e names separator us, Parser.expression context ⟨ts, fs⟩ = .done e ⟨separator :: us, names⟩ ∧
      (separator.kind = .parenClose ∧ es = [e] ∧ us = rest ∧ fs' = names ∨
        ∃ later, separator.kind = .comma ∧
          full.arguments context ⟨us, names⟩ = .done later ⟨rest, fs'⟩ ∧ es = e :: later) := by
  have start := (congrFun₂ full_arguments context ⟨ts, fs⟩).symm.trans h
  obtain ⟨e, ⟨middle, names⟩, first, -⟩ := done_of_bind start
  obtain ⟨f, goes, onward⟩ := goesOnBehind_arguments first
  obtain ⟨separator, us, rfl, behind⟩ := goes.cases (onward.symm.trans h)
  rw [expression_eq_step]
  exact ⟨e, names, separator, us, first, behind⟩

/-- Arguments are read up to the closing parenthesis, and there is an expression before it. -/
theorem isSeparated_of_arguments {fs fs' : List Expr} {ts rest : List Token} {es : List Expr}
    (h : full.arguments context ⟨ts, fs⟩ = .done es ⟨rest, fs'⟩) :
    ∃ inside closing, ts = inside ++ closing :: rest ∧ closing.kind = .parenClose ∧
      IsSeparated (IsExpression context) fs inside es fs' := by
  obtain ⟨e, names, separator, us, first, behind⟩ := arguments_cases h
  have fewer := consumes_expression _ _ _ _ first
  obtain ⟨taken, rfl⟩ := keeps_expression.suffix first
  rcases behind with ⟨closes, rfl, rfl, rfl⟩ | ⟨later, comma, read, rfl⟩
  · have breaks := breaks_of_kind (.inr (.inl closes))
    exact ⟨taken, separator, rfl, closes, .one ((isExpression_iff (of_mem_head? breaks)).1 first)⟩
  · obtain ⟨inside, closing, rfl, closes, list⟩ := isSeparated_of_arguments read
    have first := (isExpression_iff (of_mem_head? (breaks_of_kind (.inl comma)))).1 first
    exact ⟨taken ++ separator :: inside, closing, by simp, closes, .cons first comma list⟩
termination_by ts.length

/-- No argument starts with a closing parenthesis. -/
theorem kind_ne_of_arguments {fs : List Expr} {ts : List Token} {es : List Expr} {after : Cursor}
    (h : full.arguments context ⟨ts, fs⟩ = .done es after) :
    (Cursor.token context ⟨ts, fs⟩).kind ≠ .parenClose := by
  obtain ⟨rest, fs'⟩ := after
  obtain ⟨e, names, separator, us, first, -⟩ := arguments_cases h
  rw [Parser.expression_eq_full] at first
  intro closes
  have opened := opens_of_expression first
  rw [closes] at opened
  cases opened

/-! ## Prototypes and calls -/

/-- The parentheses of a call hold a list of expressions. -/
theorem callArguments_done_iff {fs fs' : List Expr} {ts rest : List Token} {es : List Expr} :
    callArguments full context ⟨ts, fs⟩ = .done es ⟨rest, fs'⟩ ↔
      StartsWithList (IsList (IsExpression context)) rest fs ts es fs' := by
  constructor
  · intro h
    obtain ⟨opening, ⟨us, names⟩, opened, read⟩ := done_of_bind h
    obtain ⟨rfl, opens, rfl⟩ := done_of_expect opened
    rw [sees_bind] at read
    by_cases closes : (Cursor.token context ⟨us, names⟩).kind = .parenClose
    · rw [decide_eq_true closes, if_pos rfl, next_bind] at read
      cases us with
      | nil => cases closes
      | cons closing us =>
        cases read
        exact .mk opens (.nil : IsList _ names [] [] names) closes
    · rw [decide_eq_false closes, if_neg Bool.false_ne_true] at read
      obtain ⟨inside, closing, rfl, closes, list⟩ := isSeparated_of_arguments read
      exact .mk opens (.separated list) closes
  · rintro ⟨opens, list, closes⟩
    rw [callArguments, bind_of_done (expect_of_kind opens nofun), sees_bind]
    cases list with
    | nil =>
      rw [List.nil_append, token_cons, decide_eq_true closes]
      rfl
    | separated list =>
      have read := @IsSeparated.done _ _ _ _ _ _ rest _ list readsElements_arguments _ closes
      rw [decide_eq_false (kind_ne_of_arguments read), if_neg Bool.false_ne_true, read]

/-- A call is the callee with a list of expressions in parentheses behind it. -/
theorem call_done_iff {callee e : Expr} {fs fs' : List Expr} {ts rest : List Token} :
    call full callee context ⟨ts, fs⟩ = .done e ⟨rest, fs'⟩ ↔
      ∃ arguments, e = .call callee arguments callee.token ∧
        StartsWithList (IsList (IsExpression context)) rest fs ts arguments fs' := by
  constructor
  · intro h
    obtain ⟨arguments, ⟨_, _⟩, read, h⟩ := done_of_bind h
    cases h
    exact ⟨arguments, rfl, callArguments_done_iff.1 read⟩
  · rintro ⟨arguments, rfl, list⟩
    rw [call, bind_of_done (callArguments_done_iff.2 list)]
    rfl

/-- A prototype is read if its list of parameters is. -/
theorem StartsWithPrototype.done {Inside : Piece (List Expr)} {rest ts : List Token}
    {fs fs' : List Expr} {r : Expr × List Expr × Token}
    (h : StartsWithPrototype context Inside rest fs ts r fs')
    (read : ∀ {fs fs' : List Expr} {inside : List Token} {closing : Token} {xs : List Expr},
      Inside fs inside xs fs' → closing.kind = .parenClose →
        full.parameters context ⟨inside ++ closing :: rest, fs⟩ = .done xs ⟨rest, fs'⟩) :
    prototype full context ⟨ts, fs⟩ = .done r ⟨rest, fs'⟩ := by
  obtain ⟨named, ⟨opens, list, closes⟩⟩ := h
  have text : TokenKind.identifier ≠ .endOfText := nofun
  have kind := named.kind_head
  have ends : _ ≠ TokenKind.subscript := opens.trans_ne nofun
  rw [prototype, peek_bind, List.cons_append, token_cons, if_neg (kind.trans_ne text),
    if_neg (not_not.2 kind), ← List.cons_append,
    bind_of_done (named.done (of_mem_head? ends)), bind_of_done (expect_of_kind opens nofun),
    bind_of_done (read list closes)]
  rfl

/-- A prototype is a variable with a list of variables in parentheses behind it, where a comma may
stand behind the last of them. -/
theorem prototype_done_iff {r : Expr × List Expr × Token} {fs fs' : List Expr}
    {ts rest : List Token} :
    prototype full context ⟨ts, fs⟩ = .done r ⟨rest, fs'⟩ ↔
      StartsWithPrototype context (IsList (IsVariable context)) rest fs ts r fs' ∨
      StartsWithPrototype context (IsTrailed (IsVariable context)) rest fs ts r fs' := by
  constructor
  · intro h
    rw [prototype, peek_bind] at h
    split at h
    · cases h
    split at h
    · cases h
    next kind =>
    obtain ⟨name, ⟨us, names⟩, first, h⟩ := done_of_bind h
    obtain ⟨opening, ⟨_, _⟩, opened, h⟩ := done_of_bind h
    obtain ⟨parameters, ⟨_, _⟩, read, h⟩ := done_of_bind h
    cases h
    obtain ⟨rfl, opens, rfl⟩ := done_of_expect opened
    cases ts with
    | nil => exact absurd nofun kind
    | cons head ts =>
      rw [token_cons, not_not] at kind
      obtain ⟨taken, rfl, -, named⟩ := isVariable_of_done kind first
      obtain ⟨inside, closing, rfl, closes, list⟩ := isParameters_of_done read
      exact list.imp (fun list => .mk named (.mk opens list closes)) fun list =>
        .mk named (.mk opens list closes)
  · rintro (h | h)
    · exact h.done fun list closes => parameters_of_list closes (.inl list)
    · exact h.done fun list closes => parameters_of_list closes (.inr list)

/-! ## Commas behind the last parameter -/

/-- Where a token that is no comma stands before some subscripts, no comma stands at their end. -/
theorem IsSubscripts.last {fs fs' : List Expr} {ts : List Token} {xs : List Expr}
    (h : IsSubscripts context fs ts xs fs') {t : Token} (kind : t.kind ≠ .comma) :
    ∃ front u, t :: ts = front ++ [u] ∧ u.kind ≠ .comma := by
  induction h generalizing t with
  | nil => exact ⟨[], t, rfl, kind⟩
  | @name _ _ mark t' _ _ _ kind' _ ih =>
    obtain ⟨front, u, split, last⟩ := ih (t := t') (kind'.trans_ne nofun)
    exact ⟨t :: mark :: front, u, by rw [split]; rfl, last⟩
  | @number _ _ mark t' _ _ _ kind' _ ih =>
    obtain ⟨front, u, split, last⟩ := ih (t := t') (kind'.trans_ne nofun)
    exact ⟨t :: mark :: front, u, by rw [split]; rfl, last⟩
  | @group _ _ _ mark opening closing ts _ _ _ _ _ _ closes _ ih =>
    obtain ⟨front, u, split, last⟩ := ih (t := closing) (closes.trans_ne nofun)
    refine ⟨t :: mark :: opening :: (ts ++ front), u, ?_, last⟩
    rw [split, List.cons_append, List.cons_append, List.cons_append, List.append_assoc]

/-- A variable does not end with a comma. -/
theorem IsVariable.last {fs fs' : List Expr} {ts : List Token} {x : Expr}
    (h : IsVariable context fs ts x fs') : ∃ front u, ts = front ++ [u] ∧ u.kind ≠ .comma := by
  obtain ⟨kind, subscripts⟩ := h
  exact subscripts.last (kind.trans_ne nofun)

/-- Elements with commas between them do not end with one if no element does. -/
theorem IsSeparated.last {Element : Piece Expr} {fs fs' : List Expr} {ts : List Token}
    {es : List Expr} (h : IsSeparated Element fs ts es fs')
    (element : ∀ {fs fs' : List Expr} {ts : List Token} {e : Expr}, Element fs ts e fs' →
      ∃ front u, ts = front ++ [u] ∧ u.kind ≠ .comma) :
    ∃ front u, ts = front ++ [u] ∧ u.kind ≠ .comma := by
  induction h with
  | one first => exact element first
  | @cons _ _ _ ts _ comma _ _ _ _ _ ih =>
    obtain ⟨front, u, rfl, last⟩ := ih
    exact ⟨ts ++ comma :: front, u, by simp, last⟩

/-- A trailed list ends with a comma. -/
theorem IsTrailed.last {Element : Piece Expr} {fs fs' : List Expr} {ts : List Token}
    {es : List Expr} (h : IsTrailed Element fs ts es fs') :
    ∃ front u, ts = front ++ [u] ∧ u.kind = .comma := by
  obtain ⟨-, kind⟩ := h
  exact ⟨_, _, rfl, kind⟩

/-- No list of variables has a comma behind the last of them. -/
theorem not_isTrailed_of_isList {fs fs' gs gs' : List Expr} {ts : List Token} {xs ys : List Expr}
    (h : IsList (IsVariable context) fs ts xs fs') :
    ¬IsTrailed (IsVariable context) gs ts ys gs' := by
  intro trailed
  obtain ⟨front, comma, split, kind⟩ := trailed.last
  cases h with
  | nil => exact List.cons_ne_nil _ _ (List.append_eq_nil_iff.1 split.symm).2
  | separated list =>
    obtain ⟨front', u, rfl, last⟩ := list.last IsVariable.last
    obtain ⟨-, same⟩ := List.append_inj' split rfl
    cases same
    exact last kind

/-- A prototype starts with a variable, and its list follows. -/
theorem StartsWithPrototype.named {Inside : Piece (List Expr)} {rest ts : List Token}
    {fs fs' : List Expr} {r : Expr × List Expr × Token}
    (h : StartsWithPrototype context Inside rest fs ts r fs') :
    ∃ name names us, identifier full context ⟨ts, fs⟩ = .done name ⟨us, names⟩ ∧
      StartsWithList Inside rest names us r.2.1 fs' := by
  obtain ⟨named, ⟨opens, list, closes⟩⟩ := h
  have ends : _ ≠ TokenKind.subscript := opens.trans_ne nofun
  exact ⟨_, _, _, named.done (of_mem_head? ends), .mk opens list closes⟩

/-- A prototype with a comma behind its last parameter is none of the grammar. -/
theorem not_startsWithPrototype_of_trailed {rest rest' ts : List Token} {fs fs' gs : List Expr}
    {r r' : Expr × List Expr × Token}
    (h : StartsWithPrototype context (IsTrailed (IsVariable context)) rest fs ts r fs') :
    ¬StartsWithPrototype context (IsList (IsVariable context)) rest' fs ts r' gs := by
  intro listed
  have read := prototype_done_iff.2 (.inr h)
  rw [prototype_done_iff.2 (.inl listed)] at read
  cases read
  -- both read the name alike, and so the same parentheses behind it
  obtain ⟨name, names, us, first, trailed⟩ := h.named
  obtain ⟨_, _, _, first', list⟩ := listed.named
  rw [first] at first'
  cases first'
  generalize whole : us = us' at trailed
  obtain ⟨_, trailed, _⟩ := trailed
  obtain ⟨_, list, _⟩ := list
  injection whole with _ whole
  obtain ⟨same, -⟩ := List.append_inj' whole rfl
  subst same
  exact not_isTrailed_of_isList list trailed

/-! ## What is read -/

/-- Reading a prototype never gives up. -/
theorem prototype_ne_exhausted (context : Context) (k : Cursor) :
    prototype full context k ≠ .exhausted := by
  have enough := Nat.lt_succ_self k.rest.length
  have same := alike_prototype (alike_full (Nat.le_refl _)) (keeps_ofDepth _) context k enough
  rw [← same]
  exact reads_prototype (reads_ofDepth _) (keeps_ofDepth _) context k enough

/-- Reading a call never gives up. -/
theorem call_ne_exhausted (context : Context) (callee : Expr) (k : Cursor) :
    call full callee context k ≠ .exhausted := by
  have enough := Nat.lt_succ_self k.rest.length
  have same := alike_callArguments (alike_full (Nat.le_refl _)) context k enough
  have read := reads_callArguments (reads_ofDepth _) context k enough
  rw [same] at read
  rw [call, bind_eq, andThen]
  split
  · exact Reading.done_ne_exhausted _ _
  · exact Reading.failed_ne_exhausted _ _
  · contradiction

/-- Prototypes and calls are read by the grammar of lists, with one exception: behind the last
parameter of a prototype one more comma may stand. What is not of this form is refused with a
fault. -/
theorem prototype_and_call_iff (context : Context) (callee : Expr) (ts : List Token)
    (fs : List Expr) :
    (∀ r rest fs', prototype full context ⟨ts, fs⟩ = .done r ⟨rest, fs'⟩ ↔
      StartsWithPrototype context (IsList (IsVariable context)) rest fs ts r fs' ∨
      StartsWithPrototype context (IsTrailed (IsVariable context)) rest fs ts r fs') ∧
    (∀ e rest fs', call full callee context ⟨ts, fs⟩ = .done e ⟨rest, fs'⟩ ↔
      ∃ arguments, e = .call callee arguments callee.token ∧
        StartsWithList (IsList (IsExpression context)) rest fs ts arguments fs') ∧
    prototype full context ⟨ts, fs⟩ ≠ .exhausted ∧
    call full callee context ⟨ts, fs⟩ ≠ .exhausted :=
  ⟨fun _ _ _ => prototype_done_iff, fun _ _ _ => call_done_iff, prototype_ne_exhausted _ _,
    call_ne_exhausted _ _ _⟩

/-- The prototype in `\func{f(x,)}{x}` is read although it has a comma behind its parameter. -/
theorem prototype_trailing_comma : ¬ ∀ (context : Context) (ts rest : List Token)
    (fs fs' : List Expr) (r : Expr × List Expr × Token),
    prototype full context ⟨ts, fs⟩ = .done r ⟨rest, fs'⟩ →
      StartsWithPrototype context (IsList (IsVariable context)) rest fs ts r fs' := by
  intro claim
  let f : Token := ⟨.identifier, ⟨1, 6, 6⟩, "f"⟩
  let opening : Token := ⟨.parenOpen, ⟨1, 7, 7⟩, "("⟩
  let x : Token := ⟨.identifier, ⟨1, 8, 8⟩, "x"⟩
  let comma : Token := ⟨.comma, ⟨1, 9, 9⟩, ","⟩
  let closing : Token := ⟨.parenClose, ⟨1, 10, 10⟩, ")"⟩
  let rest : List Token := [⟨.braceClose, ⟨1, 11, 11⟩, "\x7d"⟩, ⟨.braceOpen, ⟨1, 12, 12⟩, "\x7b"⟩,
    ⟨.identifier, ⟨1, 13, 13⟩, "x"⟩, ⟨.braceClose, ⟨1, 14, 14⟩, "\x7d"⟩]
  let context : Context := ⟨⟨1, 15, 15⟩, fun _ => false⟩
  have parameters : IsTrailed (IsVariable context) [] ([x] ++ [comma]) [.var "x" [] x] [] :=
    .mk (.one (.mk rfl .nil)) rfl
  have trailed : StartsWithPrototype context (IsTrailed (IsVariable context)) rest []
      ([f] ++ opening :: ([x] ++ [comma] ++ closing :: rest))
      (.var "f" [] f, [.var "x" [] x], f) [] :=
    .mk (.mk rfl .nil) (.mk rfl parameters rfl)
  have read := prototype_done_iff.2 (.inr trailed)
  exact not_startsWithPrototype_of_trailed trailed (claim _ _ _ _ _ _ read)

end Grammar

end TexAlgebra
