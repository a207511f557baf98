import TexAlgebra.Parser.Progress
/-!
# The depth that a text needs

A grammar of some depth reads every text with fewer tokens than that (`Grammar.reads_ofDepth`): each
use of its recursive parts comes after a token was taken, so the depth that is left stays above the
number of tokens that are left. `Parser.expression_ne_exhausted` draws the conclusion for
expressions.
-/

namespace TexAlgebra

theorem Reading.done_ne_exhausted {α : Type} (a : α) (cursor : Cursor) :
    done a cursor ≠ exhausted := by
  intro h
  cases h

theorem Reading.failed_ne_exhausted {α : Type} (fault : ParseFault) (cursor : Cursor) :
    (failed fault cursor : Reading α) ≠ exhausted := by
  intro h
  cases h

namespace Parser

variable {α β : Type} {n : Nat}

/-- The parser finds its depth sufficient wherever fewer than `n` tokens are left. -/
def Reads (n : Nat) (p : Parser α) : Prop :=
  ∀ context cursor, cursor.rest.length < n → p context cursor ≠ .exhausted

/-- The parser finds its depth sufficient wherever some tokens but at most `n` are left. -/
def Starts (n : Nat) (p : Parser α) : Prop :=
  ∀ context cursor, cursor.rest ≠ [] → cursor.rest.length ≤ n → p context cursor ≠ .exhausted

/-! ## Combination -/

theorem reads_done (a : α) : (pure a : Parser α).Reads n :=
  fun _ _ _ => Reading.done_ne_exhausted _ _

theorem reads_fail (cause : ParseCause) (token : Token) : (fail cause token : Parser α).Reads n :=
  fun _ _ _ => Reading.failed_ne_exhausted _ _

theorem reads_ite {p q : Parser α} {c : Prop} [Decidable c] (hp : p.Reads n) (hq : q.Reads n) :
    (if c then p else q).Reads n := by
  split
  · exact hp
  · exact hq

/-- A sequence of steps that are deep enough is deep enough. -/
theorem reads_bind {p : Parser α} {f : α → Parser β} (hp : p.Reads n) (kept : p.Keeps)
    (hf : ∀ a, (f a).Reads n) : (p >>= f).Reads n := by
  intro context cursor few
  rw [bind_eq, andThen]
  cases reading : p context cursor with
  | done a middle =>
    exact hf a context middle (Nat.lt_of_le_of_lt (kept.suffix reading).length_le few)
  | failed fault middle => exact Reading.failed_ne_exhausted _ _
  | exhausted => exact absurd reading (hp context cursor few)

/-- Once a token is taken, the depth may be less by one. -/
theorem reads_succ_bind {p : Parser α} {f : α → Parser β} (hp : p.Reads (n + 1))
    (taken : p.Consumes) (hf : ∀ a, (f a).Reads n) : (p >>= f).Reads (n + 1) := by
  intro context cursor few
  rw [bind_eq, andThen]
  cases reading : p context cursor with
  | done a middle =>
    have fewer := taken context cursor a middle reading
    exact hf a context middle (by omega)
  | failed fault middle => exact Reading.failed_ne_exhausted _ _
  | exhausted => exact absurd reading (hp context cursor few)

/-- Behind a token there is one less to be deep enough for. -/
theorem starts_next_bind {f : Token → Parser β} (hf : ∀ t, (f t).Reads n) :
    (next >>= f).Starts n := by
  intro context cursor present few
  have positive := List.length_pos_iff.2 present
  refine hf _ context _ ?_
  simp only [List.length_drop]
  omega

/-- A sequence is deep enough from a token on if its first step takes one. -/
theorem starts_bind {p : Parser α} {f : α → Parser β} (hp : p.Starts n) (taken : p.Takes)
    (hf : ∀ a, (f a).Reads n) : (p >>= f).Starts n := by
  intro context cursor present few
  rw [bind_eq, andThen]
  cases reading : p context cursor with
  | done a middle =>
    have fewer := taken context cursor a middle present reading
    exact hf a context middle (by omega)
  | failed fault middle => exact Reading.failed_ne_exhausted _ _
  | exhausted => exact absurd reading (hp context cursor present few)

/-- What looks at a token is deep enough if it is for every token. -/
theorem starts_peek_bind {f : Token → Parser β} (hf : ∀ t, (f t).Starts n) :
    (peek >>= f).Starts n :=
  fun context cursor present few => hf _ context cursor present few

theorem starts_sees_bind {kind : TokenKind} {f : Bool → Parser β} (hf : ∀ b, (f b).Starts n) :
    (sees kind >>= f).Starts n :=
  fun context cursor present few => hf _ context cursor present few

/-- What is deep enough for one token more is so from a token on. -/
theorem starts_of_reads {p : Parser α} (hp : p.Reads (n + 1)) : p.Starts n :=
  fun context cursor _ few => hp context cursor (by omega)

theorem starts_done (a : α) : (pure a : Parser α).Starts n :=
  fun _ _ _ _ => Reading.done_ne_exhausted _ _

theorem starts_fail (cause : ParseCause) (token : Token) :
    (fail cause token : Parser α).Starts n :=
  fun _ _ _ _ => Reading.failed_ne_exhausted _ _

theorem starts_ite {p q : Parser α} {c : Prop} [Decidable c] (hp : p.Starts n)
    (hq : q.Starts n) : (if c then p else q).Starts n := by
  split
  · exact hp
  · exact hq

/-- A parser that starts well and needs no depth at the end of a text reads everywhere. -/
theorem reads_succ {p : Parser α} (hp : p.Starts n)
    (atEnd : ∀ context functions, p context ⟨[], functions⟩ ≠ .exhausted) : p.Reads (n + 1) := by
  intro context cursor few
  obtain ⟨rest, functions⟩ := cursor
  by_cases present : rest = []
  · subst present
    exact atEnd context functions
  · exact hp context _ present (by simp only at few ⊢; omega)

/-! ## Single tokens -/

theorem reads_peek : peek.Reads n :=
  fun _ _ _ => Reading.done_ne_exhausted _ _

theorem reads_next : next.Reads n :=
  fun _ _ _ => Reading.done_ne_exhausted _ _

theorem reads_skipEnds : skipEnds.Reads n :=
  fun _ _ _ => Reading.done_ne_exhausted _ _

theorem reads_define (name : Expr) : (define name).Reads n :=
  fun _ _ _ => Reading.done_ne_exhausted _ _

theorem reads_isFunction (x : Expr) : (isFunction x).Reads n :=
  fun _ _ _ => Reading.done_ne_exhausted _ _

theorem reads_sees (kind : TokenKind) : (sees kind).Reads n :=
  reads_bind reads_peek keeps_peek fun _ => reads_done _

theorem reads_expect (kind : TokenKind) (character : String) : (expect kind character).Reads n :=
  reads_bind reads_next keeps_next fun _ =>
    reads_ite (reads_fail _ _) (reads_ite (reads_done _) (reads_fail _ _))

end Parser

namespace Grammar

open TexAlgebra.Parser

/-- Every parser of the grammar finds its depth sufficient where fewer than `n` tokens are left. -/
structure Reads (n : Nat) (g : Grammar) : Prop where
  operand : g.operand.Reads n
  expression : g.expression.Reads n
  operators : ∀ lhs least, (g.operators lhs least).Reads n
  subscripts : g.subscripts.Reads n
  arguments : g.arguments.Reads n
  items : ∀ commas, (g.items commas).Reads n
  groups : g.groups.Reads n
  parameters : g.parameters.Reads n
  statements : ∀ opening name, (g.statements opening name).Reads n

/-- Groups kept as text need no depth. -/
theorem reads_texts {n : Nat} : texts.Reads n := by
  intro context cursor _
  unfold texts
  split
  · exact Reading.done_ne_exhausted _ _
  · exact Reading.failed_ne_exhausted _ _

section

variable {n : Nat} {g : Grammar} (hg : g.Reads n) (hk : g.Keeps)
include hg hk

/-! ## After the first token -/

theorem reads_identifier : (identifier g).Reads n :=
  reads_bind reads_next keeps_next fun _ =>
    reads_bind hg.subscripts hk.subscripts fun _ => reads_done _

theorem reads_braced (commas : Bool) : (braced g commas).Reads n :=
  reads_bind (reads_expect _ _) (keeps_expect _ _) fun _ =>
    reads_bind (hg.items _) (hk.items _) fun _ => reads_done _

theorem reads_fraction (token : Token) : (fraction g token).Reads n := by
  refine reads_bind hg.groups hk.groups fun _ => ?_
  split
  · split
    · exact reads_done _
    · exact reads_fail _ _
  · exact reads_fail _ _

omit hg hk in
theorem reads_noteFunction (target value : Expr) : (noteFunction target value).Reads n :=
  reads_ite (reads_define _) (reads_done _)

theorem reads_binding (token : Token) : (binding g token).Reads n := by
  refine reads_bind hg.groups hk.groups fun _ => ?_
  split
  · split
    · exact reads_fail _ _
    · exact reads_fail _ _
    · exact reads_ite (reads_fail _ _) (reads_bind (reads_noteFunction _ _)
        (keeps_noteFunction _ _) fun _ => reads_done _)
  · exact reads_fail _ _

theorem reads_prototype : (prototype g).Reads n :=
  reads_bind reads_peek keeps_peek fun _ => reads_ite (reads_fail _ _) <|
    reads_ite (reads_fail _ _) <|
      reads_bind (reads_identifier hg hk) (keeps_identifier hk) fun _ =>
        reads_bind (reads_expect _ _) (keeps_expect _ _) fun _ =>
          reads_bind hg.parameters hk.parameters fun _ => reads_done _

theorem reads_function (token : Token) : (function g token).Reads n := by
  refine reads_bind (reads_expect _ _) (keeps_expect _ _) fun _ =>
    reads_bind (reads_prototype hg hk) (keeps_prototype hk) fun _ =>
      reads_bind (reads_expect _ _) (keeps_expect _ _) fun _ =>
        reads_bind (reads_define _) (keeps_define _) fun _ =>
          reads_bind (reads_braced hg hk _) (keeps_braced hk _) fun _ => ?_
  split
  · exact reads_ite (reads_fail _ _) (reads_done _)
  · exact reads_fail _ _

theorem reads_block (token : Token) : (block g token).Reads n := by
  refine reads_bind reads_texts keeps_texts fun _ => ?_
  split
  · exact reads_fail _ _
  · exact reads_bind (hg.statements _ _) (hk.statements _ _) fun _ => reads_done _

theorem reads_afterControlWord (token : Token) : (afterControlWord g token).Reads n := by
  unfold afterControlWord
  split
  · exact reads_block hg hk _
  · exact reads_function hg hk _
  · exact reads_fraction hg hk _
  · exact reads_binding hg hk _
  · exact reads_bind hg.groups hk.groups fun _ => reads_done _

omit hk in
theorem reads_callArguments : (callArguments g).Reads n :=
  reads_bind (reads_expect _ _) (keeps_expect _ _) fun _ =>
    reads_bind (reads_sees _) (keeps_sees _) fun _ =>
      reads_ite (reads_bind reads_next keeps_next fun _ => reads_done _) hg.arguments

omit hk in
theorem reads_rightOperand (op : Operator) (rhs : Expr) : (rightOperand g op rhs).Reads n :=
  reads_bind reads_peek keeps_peek fun _ => reads_ite (hg.operators _ _) (reads_done _)

/-! ## Operands -/

theorem starts_controlWord : (controlWord g).Starts n :=
  starts_peek_bind fun _ => starts_ite (starts_fail _ _) <|
    starts_next_bind fun _ => reads_afterControlWord hg hk _

theorem starts_parenthesized : (parenthesized g).Starts n :=
  starts_next_bind fun _ => reads_bind hg.expression hk.expression fun _ =>
    reads_bind (reads_expect _ _) (keeps_expect _ _) fun _ => reads_done _

theorem starts_signed : (signed g g.operand).Starts n := by
  refine starts_next_bind fun _ => ?_
  split
  · exact reads_ite (reads_bind hg.operand hk.operand fun _ => reads_ite (reads_done _) <|
      reads_bind (hg.operators _ _) (hk.operators _ _) fun _ => reads_done _) (reads_fail _ _)
  · exact reads_fail _ _

theorem starts_identifier : (identifier g).Starts n :=
  starts_next_bind fun _ => reads_bind hg.subscripts hk.subscripts fun _ => reads_done _

theorem starts_name : (name g).Starts n :=
  starts_bind (starts_identifier hg hk) (takes_identifier hk) fun _ =>
    reads_bind (reads_sees _) (keeps_sees _) fun _ => reads_ite (reads_done _) <|
      reads_bind (reads_isFunction _) (keeps_isFunction _) fun _ => reads_ite (reads_done _) <|
        reads_bind (reads_callArguments hg) (keeps_callArguments hk) fun _ => reads_done _

omit hg hk in
theorem starts_number : number.Starts n := starts_next_bind fun _ => reads_done _

/-- An operand needs one level more than its parts. -/
theorem reads_operandStep : (operandStep g).Reads (n + 1) := by
  refine reads_succ (starts_peek_bind fun _ => ?_) ?_
  · split
    · exact starts_controlWord hg hk
    · exact starts_signed hg hk
    · exact starts_name hg hk
    · exact starts_number
    · exact starts_parenthesized hg hk
    · exact starts_fail _ _
    · exact starts_fail _ _
    · exact starts_fail _ _
  · intro context functions
    simp [operandStep, bind_eq, andThen, peek, Cursor.token, Token.ending, fail]

/-! ## Chains -/

/-- A chain of operators needs one level more than its parts. -/
theorem reads_operatorsStep (lhs : Expr) (least : Nat) :
    (operatorsStep g lhs least).Reads (n + 1) := by
  refine reads_bind reads_peek keeps_peek fun _ => ?_
  split
  · exact reads_done _
  · refine reads_ite (reads_done _) <| reads_bind ?_ keeps_operatorToken fun _ =>
      reads_succ_bind (reads_operandStep hg hk) (consumes_operandStep hk) fun _ =>
        reads_ite (reads_done _) <| reads_bind (reads_rightOperand hg _ _)
          (keeps_rightOperand hk _ _) fun _ => hg.operators _ _
    refine reads_bind reads_peek keeps_peek fun _ => ?_
    split
    · exact reads_next
    · exact reads_done _

/-- An expression needs one level more than its parts. -/
theorem reads_expressionStep : (expressionStep g).Reads (n + 1) :=
  reads_bind (reads_operandStep hg hk) (keeps_operandStep hk) fun _ =>
    reads_ite (reads_done _) (reads_operatorsStep hg hk _ _)

theorem reads_argumentsStep : (argumentsStep g).Reads (n + 1) := by
  refine reads_succ_bind (reads_expressionStep hg hk) (consumes_expressionStep hk) fun _ =>
    reads_bind reads_next keeps_next fun _ => ?_
  split
  · exact reads_done _
  · exact reads_bind hg.arguments hk.arguments fun _ => reads_done _
  · exact reads_fail _ _
  · exact reads_fail _ _

/-! ## Lists -/

theorem reads_subscriptsStep : (subscriptsStep g).Reads (n + 1) := by
  refine reads_succ (starts_sees_bind fun _ => starts_ite (starts_done _) ?_) ?_
  · refine starts_next_bind fun _ => reads_bind reads_peek keeps_peek fun following => ?_
    split
    · exact reads_bind reads_next keeps_next fun _ => reads_bind (hg.items _) (hk.items _) fun _ =>
        reads_bind hg.subscripts hk.subscripts fun _ => reads_done _
    · exact reads_bind reads_next keeps_next fun _ =>
        reads_bind hg.subscripts hk.subscripts fun _ => reads_done _
    · exact reads_bind reads_next keeps_next fun _ =>
        reads_bind hg.subscripts hk.subscripts fun _ => reads_done _
    · exact reads_fail _ _
    · exact reads_fail _ _
  · intro context functions
    simp [subscriptsStep, sees, pure_eq, bind_eq, andThen, done, peek, Cursor.token, Token.ending]

theorem reads_groupsStep : (groupsStep g).Reads (n + 1) := by
  refine reads_succ (starts_sees_bind fun _ => starts_ite (starts_done _) ?_) ?_
  · exact starts_next_bind fun _ => reads_bind (hg.items _) (hk.items _) fun _ =>
      reads_bind hg.groups hk.groups fun _ => reads_done _
  · intro context functions
    simp [groupsStep, sees, pure_eq, bind_eq, andThen, done, peek, Cursor.token, Token.ending]

theorem reads_parametersStep : (parametersStep g).Reads (n + 1) := by
  have closed : (expect .parenClose ")" >>= fun _ => pure ([] : List Expr)).Reads (n + 1) :=
    reads_bind (reads_expect _ _) (keeps_expect _ _) fun _ => reads_done _
  refine reads_succ (starts_sees_bind fun _ => starts_ite (starts_of_reads closed) ?_) ?_
  · refine starts_bind (starts_identifier hg hk) (takes_identifier hk) fun _ =>
      reads_bind reads_next keeps_next fun _ => ?_
    split
    · exact reads_done _
    · exact reads_bind hg.parameters hk.parameters fun _ => reads_done _
    · exact reads_fail _ _
  · intro context functions
    simp [parametersStep, sees, expect, pure_eq, bind_eq, andThen, done, peek, next, Cursor.token,
      Token.ending, fail]

theorem reads_itemsStep (commas : Bool) : (itemsStep g commas).Reads (n + 1) := by
  refine reads_bind reads_skipEnds keeps_skipEnds fun _ => ?_
  refine reads_succ (starts_peek_bind fun _ => ?_) ?_
  · exact starts_ite (starts_next_bind fun _ => reads_done _) <| starts_ite (starts_fail _ _) <|
      starts_ite (starts_next_bind fun _ => hg.items _) <| starts_of_reads <|
        reads_succ_bind (reads_expressionStep hg hk) (consumes_expressionStep hk) fun _ =>
          reads_bind (hg.items _) (hk.items _) fun _ => reads_done _
  · intro context functions
    simp [bind_eq, andThen, peek, Cursor.token, Token.ending, fail]

theorem reads_statementsStep (opening : Token) (name : String) :
    (statementsStep g opening name).Reads (n + 1) := by
  refine reads_bind reads_skipEnds keeps_skipEnds fun _ =>
    reads_bind reads_peek keeps_peek fun _ => reads_ite ?_ <| reads_ite (reads_fail _ _) <|
      reads_succ_bind (reads_expressionStep hg hk) (consumes_expressionStep hk) fun _ =>
        reads_bind (hg.statements _ _) (hk.statements _ _) fun _ => reads_done _
  exact reads_bind reads_next keeps_next fun _ => reads_bind reads_texts keeps_texts fun _ =>
    reads_ite (reads_done _) (reads_fail _ _)

/-- One more level is enough for one more token. -/
theorem reads_step : (step g).Reads (n + 1) where
  operand := reads_operandStep hg hk
  expression := reads_expressionStep hg hk
  operators := reads_operatorsStep hg hk
  subscripts := reads_subscriptsStep hg hk
  arguments := reads_argumentsStep hg hk
  items := reads_itemsStep hg hk
  groups := reads_groupsStep hg hk
  parameters := reads_parametersStep hg hk
  statements := reads_statementsStep hg hk

end

/-- No level is enough for no token. -/
theorem reads_none : none.Reads 0 where
  operand _ _ few := absurd few (Nat.not_lt_zero _)
  expression _ _ few := absurd few (Nat.not_lt_zero _)
  operators _ _ _ _ few := absurd few (Nat.not_lt_zero _)
  subscripts _ _ few := absurd few (Nat.not_lt_zero _)
  arguments _ _ few := absurd few (Nat.not_lt_zero _)
  items _ _ _ few := absurd few (Nat.not_lt_zero _)
  groups _ _ few := absurd few (Nat.not_lt_zero _)
  parameters _ _ few := absurd few (Nat.not_lt_zero _)
  statements _ _ _ _ few := absurd few (Nat.not_lt_zero _)

/-- As many levels as tokens are enough. -/
theorem reads_ofDepth (depth : Nat) : (ofDepth depth).Reads depth := by
  induction depth with
  | zero => exact reads_none
  | succ depth ih => exact reads_step ih (keeps_ofDepth depth)

end Grammar

/-- The depth that is taken for an expression always suffices. -/
theorem Parser.expression_ne_exhausted (context : Context) (cursor : Cursor) :
    expression context cursor ≠ .exhausted :=
  (Grammar.reads_ofDepth _).expression context cursor (Nat.lt_succ_self _)

end TexAlgebra
