import TexAlgebra.Parser.Grammar
/-!
# Progress of the parser

What a parser leaves is a tail of what it was given, whether it succeeds or not (`Parser.Keeps`),
and reading an expression takes at least one token (`Parser.Consumes`). So a text is read in
finitely many statements.

* `Grammar.keeps_ofDepth`: the parsers of the grammar leave a tail of what they are given.
* `Parser.consumes_expression`: an expression is never empty.
-/

namespace TexAlgebra

/-- Whether the cursor that a reading leaves behind, if any, satisfies `P`. -/
def Reading.Leaves {α : Type} (P : Cursor → Prop) : Reading α → Prop
  | .done _ cursor => P cursor
  | .failed _ cursor => P cursor
  | .exhausted => True

/-- What a reading leaves has all properties that follow. -/
theorem Reading.Leaves.mono {α : Type} {P Q : Cursor → Prop} (h : ∀ cursor, P cursor → Q cursor)
    {r : Reading α} (hr : r.Leaves P) : r.Leaves Q := by
  cases r with
  | done a cursor => exact h cursor hr
  | failed fault cursor => exact h cursor hr
  | exhausted => trivial

namespace Parser

variable {α β : Type}

/-- The parser leaves a tail of what it is given. -/
def Keeps (p : Parser α) : Prop :=
  ∀ context cursor, (p context cursor).Leaves (·.rest <:+ cursor.rest)

/-- The parser takes at least one token when it succeeds. -/
def Consumes (p : Parser α) : Prop :=
  ∀ context cursor a after, p context cursor = .done a after →
    after.rest.length < cursor.rest.length

/-- The parser takes at least one token when it succeeds before the end of the text. -/
def Takes (p : Parser α) : Prop :=
  ∀ context cursor a after, cursor.rest ≠ [] → p context cursor = .done a after →
    after.rest.length < cursor.rest.length

/-- What is left of a text is an end of it. -/
theorem Keeps.suffix {p : Parser α} (hp : p.Keeps) {context : Context} {cursor after : Cursor}
    {a : α} (h : p context cursor = .done a after) : after.rest <:+ cursor.rest := by
  have kept := hp context cursor
  rw [h] at kept
  exact kept

/-! ## Combination -/

theorem keeps_done (a : α) : (pure a : Parser α).Keeps := fun _ _ => List.suffix_rfl

theorem keeps_fail (cause : ParseCause) (token : Token) : (fail cause token : Parser α).Keeps :=
  fun _ _ => List.suffix_rfl

theorem keeps_exhausted : (exhausted : Parser α).Keeps := fun _ _ => trivial

/-- A sequence only reads on if both of its steps do. -/
theorem keeps_bind {p : Parser α} {f : α → Parser β} (hp : p.Keeps) (hf : ∀ a, (f a).Keeps) :
    (p >>= f).Keeps := by
  intro context cursor
  have before := hp context cursor
  rw [bind_eq, andThen]
  cases reading : p context cursor with
  | done a middle =>
    rw [reading] at before
    exact (hf a context middle).mono fun _ after => List.IsSuffix.trans after before
  | failed fault middle =>
    rw [reading] at before
    exact before
  | exhausted => trivial

theorem keeps_ite {p q : Parser α} {c : Prop} [Decidable c] (hp : p.Keeps) (hq : q.Keeps) :
    (if c then p else q).Keeps := by
  split
  · exact hp
  · exact hq

/-- A sequence takes a token if its first step does. -/
theorem consumes_bind {p : Parser α} {f : α → Parser β} (hp : p.Consumes)
    (hf : ∀ a, (f a).Keeps) : (p >>= f).Consumes := by
  intro context cursor b last h
  rw [bind_eq, andThen] at h
  cases reading : p context cursor with
  | done a middle =>
    rw [reading] at h
    exact Nat.lt_of_le_of_lt ((hf a).suffix h).length_le (hp _ _ _ _ reading)
  | failed fault middle => rw [reading] at h; cases h
  | exhausted => rw [reading] at h; cases h

theorem takes_fail (cause : ParseCause) (token : Token) : (fail cause token : Parser α).Takes := by
  intro context cursor a after _ h
  cases h

theorem takes_ite {p q : Parser α} {c : Prop} [Decidable c] (hp : p.Takes) (hq : q.Takes) :
    (if c then p else q).Takes := by
  split
  · exact hp
  · exact hq

/-- What reads a token takes it. -/
theorem takes_next_bind {f : Token → Parser β} (hf : ∀ t, (f t).Keeps) : (next >>= f).Takes := by
  intro context cursor b last present h
  have kept := ((hf _).suffix h).length_le
  have := List.length_pos_iff.2 present
  simp only [List.length_drop] at kept
  omega

/-- What looks at a token takes one if it does for every token. -/
theorem takes_peek_bind {f : Token → Parser β} (hf : ∀ t, (f t).Takes) : (peek >>= f).Takes :=
  fun context cursor b last present h => hf _ context cursor b last present h

/-- A sequence takes a token if its first step does. -/
theorem takes_bind {p : Parser α} {f : α → Parser β} (hp : p.Takes) (hf : ∀ a, (f a).Keeps) :
    (p >>= f).Takes := by
  intro context cursor b last present h
  rw [bind_eq, andThen] at h
  cases reading : p context cursor with
  | done a middle =>
    rw [reading] at h
    exact Nat.lt_of_le_of_lt ((hf a).suffix h).length_le (hp _ _ _ _ present reading)
  | failed fault middle => rw [reading] at h; cases h
  | exhausted => rw [reading] at h; cases h

/-! ## Single tokens -/

theorem keeps_peek : peek.Keeps := fun _ _ => List.suffix_rfl

theorem keeps_next : next.Keeps := fun _ _ => List.drop_suffix _ _

theorem keeps_skipEnds : skipEnds.Keeps := fun _ _ => List.dropWhile_suffix _

theorem keeps_define (name : Expr) : (define name).Keeps := fun _ _ => List.suffix_rfl

theorem keeps_isFunction (x : Expr) : (isFunction x).Keeps := fun _ _ => List.suffix_rfl

theorem keeps_sees (kind : TokenKind) : (sees kind).Keeps :=
  keeps_bind keeps_peek fun _ => keeps_done _

theorem keeps_expect (kind : TokenKind) (character : String) : (expect kind character).Keeps :=
  keeps_bind keeps_next fun _ =>
    keeps_ite (keeps_fail _ _) (keeps_ite (keeps_done _) (keeps_fail _ _))

end Parser

namespace Grammar

open TexAlgebra.Parser

/-- Every parser of the grammar leaves a tail of what it is given. -/
structure Keeps (g : Grammar) : Prop where
  operand : g.operand.Keeps
  expression : g.expression.Keeps
  operators : ∀ lhs least, (g.operators lhs least).Keeps
  subscripts : g.subscripts.Keeps
  arguments : g.arguments.Keeps
  items : ∀ commas, (g.items commas).Keeps
  groups : g.groups.Keeps
  parameters : g.parameters.Keeps
  statements : ∀ opening name, (g.statements opening name).Keeps

/-- Groups kept as text are read on. -/
theorem readTexts_suffix (ending : Position) (rest : List Token) :
    (readTexts ending rest).2 <:+ rest := by
  fun_induction readTexts ending rest with
  | case1 => exact List.suffix_rfl
  | case2 => exact List.nil_suffix
  | case3 token rest h inside after hafter later left eq ih =>
    rw [eq] at ih
    refine List.IsSuffix.trans ih (List.IsSuffix.trans (List.drop_suffix _ _) ?_)
    exact List.IsSuffix.trans (List.drop_suffix _ _) (List.suffix_cons _ _)
  | case4 => exact List.suffix_rfl

theorem keeps_texts : texts.Keeps := by
  intro context cursor
  have shorter := readTexts_suffix context.ending cursor.rest
  unfold texts
  revert shorter
  rcases readTexts context.ending cursor.rest with ⟨_ | _, rest⟩
  · exact id
  · exact id

section

variable {g : Grammar} (hg : g.Keeps)
include hg

theorem keeps_identifier : (identifier g).Keeps :=
  keeps_bind keeps_next fun _ => keeps_bind hg.subscripts fun _ => keeps_done _

theorem keeps_subscriptsStep : (subscriptsStep g).Keeps := by
  refine keeps_bind (keeps_sees _) fun _ => keeps_ite (keeps_done _) ?_
  refine keeps_bind keeps_next fun _ => keeps_bind keeps_peek fun following => ?_
  split
  · exact keeps_bind keeps_next fun _ => keeps_bind (hg.items _) fun _ =>
      keeps_bind hg.subscripts fun _ => keeps_done _
  · exact keeps_bind keeps_next fun _ => keeps_bind hg.subscripts fun _ => keeps_done _
  · exact keeps_bind keeps_next fun _ => keeps_bind hg.subscripts fun _ => keeps_done _
  · exact keeps_fail _ _
  · exact keeps_fail _ _

theorem keeps_braced (commas : Bool) : (braced g commas).Keeps :=
  keeps_bind (keeps_expect _ _) fun _ => keeps_bind (hg.items _) fun _ => keeps_done _

theorem keeps_groupsStep : (groupsStep g).Keeps :=
  keeps_bind (keeps_sees _) fun _ => keeps_ite (keeps_done _) <|
    keeps_bind keeps_next fun _ => keeps_bind (hg.items _) fun _ =>
      keeps_bind hg.groups fun _ => keeps_done _

theorem keeps_fraction (token : Token) : (fraction g token).Keeps := by
  refine keeps_bind hg.groups fun _ => ?_
  split
  · split
    · exact keeps_done _
    · exact keeps_fail _ _
  · exact keeps_fail _ _

omit hg in
theorem keeps_noteFunction (target value : Expr) : (noteFunction target value).Keeps :=
  keeps_ite (keeps_define _) (keeps_done _)

theorem keeps_binding (token : Token) : (binding g token).Keeps := by
  refine keeps_bind hg.groups fun _ => ?_
  split
  · split
    · exact keeps_fail _ _
    · exact keeps_fail _ _
    · exact keeps_ite (keeps_fail _ _) (keeps_bind (keeps_noteFunction _ _) fun _ => keeps_done _)
  · exact keeps_fail _ _

theorem keeps_prototype : (prototype g).Keeps :=
  keeps_bind keeps_peek fun _ => keeps_ite (keeps_fail _ _) <| keeps_ite (keeps_fail _ _) <|
    keeps_bind (keeps_identifier hg) fun _ => keeps_bind (keeps_expect _ _) fun _ =>
      keeps_bind hg.parameters fun _ => keeps_done _

theorem keeps_parametersStep : (parametersStep g).Keeps := by
  refine keeps_bind (keeps_sees _) fun _ => keeps_ite ?_ ?_
  · exact keeps_bind (keeps_expect _ _) fun _ => keeps_done _
  · refine keeps_bind (keeps_identifier hg) fun _ => keeps_bind keeps_next fun _ => ?_
    split
    · exact keeps_done _
    · exact keeps_bind hg.parameters fun _ => keeps_done _
    · exact keeps_fail _ _

theorem keeps_function (token : Token) : (function g token).Keeps := by
  refine keeps_bind (keeps_expect _ _) fun _ => keeps_bind (keeps_prototype hg) fun _ =>
    keeps_bind (keeps_expect _ _) fun _ =>
      keeps_bind (keeps_define _) fun _ => keeps_bind (keeps_braced hg _) fun _ => ?_
  split
  · exact keeps_ite (keeps_fail _ _) (keeps_done _)
  · exact keeps_fail _ _

theorem keeps_block (token : Token) : (block g token).Keeps := by
  refine keeps_bind keeps_texts fun _ => ?_
  split
  · exact keeps_fail _ _
  · exact keeps_bind (hg.statements _ _) fun _ => keeps_done _

theorem keeps_afterControlWord (token : Token) : (afterControlWord g token).Keeps := by
  unfold afterControlWord
  split
  · exact keeps_block hg _
  · exact keeps_function hg _
  · exact keeps_fraction hg _
  · exact keeps_binding hg _
  · exact keeps_bind hg.groups fun _ => keeps_done _

theorem keeps_controlWord : (controlWord g).Keeps :=
  keeps_bind keeps_peek fun _ => keeps_ite (keeps_fail _ _) <|
    keeps_bind keeps_next fun _ => keeps_afterControlWord hg _

theorem keeps_parenthesized : (parenthesized g).Keeps :=
  keeps_bind keeps_next fun _ => keeps_bind hg.expression fun _ =>
    keeps_bind (keeps_expect _ _) fun _ => keeps_done _

theorem keeps_callArguments : (callArguments g).Keeps :=
  keeps_bind (keeps_expect _ _) fun _ => keeps_bind (keeps_sees _) fun _ =>
    keeps_ite (keeps_bind keeps_next fun _ => keeps_done _) hg.arguments

theorem keeps_name : (name g).Keeps :=
  keeps_bind (keeps_identifier hg) fun _ => keeps_bind (keeps_sees _) fun _ =>
    keeps_ite (keeps_done _) <| keeps_bind (keeps_isFunction _) fun _ =>
      keeps_ite (keeps_done _) <| keeps_bind (keeps_callArguments hg) fun _ => keeps_done _

omit hg in
theorem keeps_number : number.Keeps := keeps_bind keeps_next fun _ => keeps_done _

theorem keeps_signed {operand : Parser Expr} (ho : operand.Keeps) :
    (signed g operand).Keeps := by
  refine keeps_bind keeps_next fun _ => ?_
  split
  · exact keeps_ite (keeps_bind ho fun _ => keeps_ite (keeps_done _) <|
      keeps_bind (hg.operators _ _) fun _ => keeps_done _) (keeps_fail _ _)
  · exact keeps_fail _ _

theorem keeps_operandStep : (operandStep g).Keeps := by
  refine keeps_bind keeps_peek fun _ => ?_
  split
  · exact keeps_controlWord hg
  · exact keeps_signed hg hg.operand
  · exact keeps_name hg
  · exact keeps_number
  · exact keeps_parenthesized hg
  · exact keeps_fail _ _
  · exact keeps_fail _ _
  · exact keeps_fail _ _

omit hg in
theorem keeps_operatorToken : operatorToken.Keeps := by
  refine keeps_bind keeps_peek fun _ => ?_
  split
  · exact keeps_next
  · exact keeps_done _

theorem keeps_rightOperand (op : Operator) (rhs : Expr) : (rightOperand g op rhs).Keeps :=
  keeps_bind keeps_peek fun _ => keeps_ite (hg.operators _ _) (keeps_done _)

theorem keeps_operatorsStep (lhs : Expr) (least : Nat) : (operatorsStep g lhs least).Keeps := by
  refine keeps_bind keeps_peek fun _ => ?_
  split
  · exact keeps_done _
  · exact keeps_ite (keeps_done _) <| keeps_bind keeps_operatorToken fun _ =>
      keeps_bind (keeps_operandStep hg) fun _ => keeps_ite (keeps_done _) <|
        keeps_bind (keeps_rightOperand hg _ _) fun _ => hg.operators _ _

theorem keeps_expressionStep : (expressionStep g).Keeps :=
  keeps_bind (keeps_operandStep hg) fun _ =>
    keeps_ite (keeps_done _) (keeps_operatorsStep hg _ _)

theorem keeps_argumentsStep : (argumentsStep g).Keeps := by
  refine keeps_bind (keeps_expressionStep hg) fun _ => keeps_bind keeps_next fun _ => ?_
  split
  · exact keeps_done _
  · exact keeps_bind hg.arguments fun _ => keeps_done _
  · exact keeps_fail _ _
  · exact keeps_fail _ _

theorem keeps_itemsStep (commas : Bool) : (itemsStep g commas).Keeps :=
  keeps_bind keeps_skipEnds fun _ => keeps_bind keeps_peek fun _ =>
    keeps_ite (keeps_bind keeps_next fun _ => keeps_done _) <|
      keeps_ite (keeps_fail _ _) <|
        keeps_ite (keeps_bind keeps_next fun _ => hg.items _) <|
          keeps_bind (keeps_expressionStep hg) fun _ =>
            keeps_bind (hg.items _) fun _ => keeps_done _

omit hg in
theorem keeps_closing (name : String) : (closing name).Keeps :=
  keeps_bind keeps_next fun _ => keeps_bind keeps_texts fun _ =>
    keeps_ite (keeps_done _) (keeps_fail _ _)

theorem keeps_statementsStep (opening : Token) (name : String) :
    (statementsStep g opening name).Keeps :=
  keeps_bind keeps_skipEnds fun _ => keeps_bind keeps_peek fun _ =>
    keeps_ite (keeps_closing _) <| keeps_ite (keeps_fail _ _) <|
      keeps_bind (keeps_expressionStep hg) fun _ =>
        keeps_bind (hg.statements _ _) fun _ => keeps_done _

/-- One more level only reads on. -/
theorem keeps_step : (step g).Keeps where
  operand := keeps_operandStep hg
  expression := keeps_expressionStep hg
  operators := keeps_operatorsStep hg
  subscripts := keeps_subscriptsStep hg
  arguments := keeps_argumentsStep hg
  items := keeps_itemsStep hg
  groups := keeps_groupsStep hg
  parameters := keeps_parametersStep hg
  statements := keeps_statementsStep hg

end

theorem keeps_none : none.Keeps where
  operand := keeps_exhausted
  expression := keeps_exhausted
  operators _ _ := keeps_exhausted
  subscripts := keeps_exhausted
  arguments := keeps_exhausted
  items _ := keeps_exhausted
  groups := keeps_exhausted
  parameters := keeps_exhausted
  statements _ _ := keeps_exhausted

/-- All levels only read on. -/
theorem keeps_ofDepth (depth : Nat) : (ofDepth depth).Keeps := by
  induction depth with
  | zero => exact keeps_none
  | succ depth ih => exact keeps_step ih

/-! ## Consumption -/

section

variable {g : Grammar} (hg : g.Keeps)
include hg

theorem takes_identifier : (identifier g).Takes :=
  takes_next_bind fun _ => keeps_bind hg.subscripts fun _ => keeps_done _

theorem takes_controlWord : (controlWord g).Takes :=
  takes_peek_bind fun _ => takes_ite (takes_fail _ _) <|
    takes_next_bind fun _ => keeps_afterControlWord hg _

theorem takes_parenthesized : (parenthesized g).Takes :=
  takes_next_bind fun _ => keeps_bind hg.expression fun _ =>
    keeps_bind (keeps_expect _ _) fun _ => keeps_done _

theorem takes_name : (name g).Takes :=
  takes_bind (takes_identifier hg) fun _ => keeps_bind (keeps_sees _) fun _ =>
    keeps_ite (keeps_done _) <| keeps_bind (keeps_isFunction _) fun _ =>
      keeps_ite (keeps_done _) <| keeps_bind (keeps_callArguments hg) fun _ => keeps_done _

omit hg in
theorem takes_number : number.Takes := takes_next_bind fun _ => keeps_done _

theorem takes_signed : (signed g g.operand).Takes := by
  refine takes_next_bind fun _ => ?_
  split
  · exact keeps_ite (keeps_bind hg.operand fun _ => keeps_ite (keeps_done _) <|
      keeps_bind (hg.operators _ _) fun _ => keeps_done _) (keeps_fail _ _)
  · exact keeps_fail _ _

theorem takes_operandStep : (operandStep g).Takes := by
  refine takes_peek_bind fun _ => ?_
  split
  · exact takes_controlWord hg
  · exact takes_signed hg
  · exact takes_name hg
  · exact takes_number
  · exact takes_parenthesized hg
  · exact takes_fail _ _
  · exact takes_fail _ _
  · exact takes_fail _ _

/-- An operand takes a token. -/
theorem consumes_operandStep : (operandStep g).Consumes := by
  intro context cursor e after h
  by_cases atEnd : cursor.rest = []
  · simp [operandStep, bind_eq, andThen, peek, Cursor.token, atEnd, Token.ending, fail] at h
  · exact takes_operandStep hg context cursor e after atEnd h

/-- An expression takes a token. -/
theorem consumes_expressionStep : (expressionStep g).Consumes :=
  consumes_bind (consumes_operandStep hg) fun _ =>
    keeps_ite (keeps_done _) (keeps_operatorsStep hg _ _)

end

end Grammar

namespace Parser

/-- Reading an expression only reads on. -/
theorem keeps_expression : expression.Keeps := fun context cursor =>
  (Grammar.keeps_ofDepth _).expression context cursor

/-- Reading an expression takes a token. -/
theorem consumes_expression : expression.Consumes := fun context cursor =>
  Grammar.consumes_expressionStep (Grammar.keeps_ofDepth _) context cursor

end Parser

end TexAlgebra
