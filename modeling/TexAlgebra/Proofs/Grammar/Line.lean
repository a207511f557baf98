import TexAlgebra.Proofs.Grammar.Excerpt
import Mathlib.Logic.Basic
/-!
# Reading within a line

A line without groups and control words is read up to the end of the statement behind it and no
further, whatever comes after (`Parser.staysIn_expression`). If it cannot be read, then what is left
starts within the line or at its end, with one exception: a fault about the end of the statement
itself, in place of a closing parenthesis or of a comma between arguments. There the end of the
statement is read and lost (`ParseFault.takesEnd`).
-/

namespace TexAlgebra

/-- Whether tokens of a kind can stand within a line: they end neither a text nor a statement and
belong neither to a group nor to a control word. -/
def TokenKind.isInline : TokenKind → Bool
  | .controlWord | .braceOpen | .braceClose | .endOfText | .endOfStatement => false
  | _ => true

/-- Whether a token can stand within a line. -/
def Token.isInline (t : Token) : Bool := t.kind.isInline

/-- A token within a line is of no other kind. -/
theorem Token.kind_ne_of_isInline {t : Token} {kind : TokenKind} (inside : t.isInline = true)
    (outside : kind.isInline = false) : t.kind ≠ kind := by
  rintro rfl
  exact Bool.noConfusion (outside.symm.trans inside)

/-- Whether the end of a statement was read for a parenthesis or a comma that is missing there. -/
def ParseFault.takesEnd (fault : ParseFault) : Bool :=
  match fault.cause with
  | .missingCharacter _ => fault.token.kind = .endOfStatement
  | .badArgumentList => fault.token.kind = .endOfStatement
  | _ => false

/-- Whether the cursor is within a line that ends with the token `e`, behind which nothing
follows. -/
def Cursor.InLine (e : Token) (k : Cursor) : Prop :=
  ∃ line, (∀ t ∈ line, t.isInline = true) ∧ k.rest = line ++ [e]

/-- Whether a reading leaves a cursor within the line, unless its fault takes the end of the
line. -/
def Reading.LeavesLine {α : Type} (e : Token) (functions : List Expr) : Reading α → Prop
  | .done _ after => after.InLine e ∧ after.functions = functions
  | .failed fault after =>
    (if fault.takesEnd then after.rest = [] else after.InLine e) ∧ after.functions = functions
  | .exhausted => True

namespace Parser

variable {α β : Type} {E : Excerpt} {e t : Token}

/-- Whether a parser does in a line that ends with `e` the same as if something follows, and leaves
the rest of the line. -/
def StaysIn (E : Excerpt) (e : Token) (p : Parser α) : Prop :=
  ∀ k : Cursor, k.InLine e → E.Same p k ∧ (p E.context k).LeavesLine e k.functions

/-- Whether `StaysIn` holds where the token `t` is at the cursor. -/
def StaysAt (E : Excerpt) (e t : Token) (p : Parser α) : Prop :=
  ∀ k : Cursor, k.InLine e → k.token E.context = t →
    E.Same p k ∧ (p E.context k).LeavesLine e k.functions

/-! ## Lines -/

/-- Within a line the end of the line is left. -/
theorem rest_ne_nil {k : Cursor} (line : k.InLine e) : k.rest ≠ [] := by
  obtain ⟨tokens, _, split⟩ := line
  simp [split]

/-- The token at a cursor in a line is one of the line or its end. -/
theorem isInline_or_eq {k : Cursor} (line : k.InLine e) (context : Context) :
    (k.token context).isInline = true ∨ k.token context = e := by
  obtain ⟨tokens, inside, split⟩ := line
  rw [Cursor.token, split]
  cases tokens with
  | nil => exact .inr rfl
  | cons t tokens => exact .inl (inside t List.mem_cons_self)

/-- Behind a token of the line the line goes on. -/
theorem inLine_drop {k : Cursor} (line : k.InLine e) {context : Context}
    (other : k.token context ≠ e) : Cursor.InLine e { k with rest := k.rest.drop 1 } := by
  obtain ⟨tokens, inside, split⟩ := line
  rw [Cursor.token, split] at other
  cases tokens with
  | nil => exact absurd rfl other
  | cons t tokens =>
    exact ⟨tokens, (List.forall_mem_cons.1 inside).2, by simp only [split]; rfl⟩

/-- The end of the line is the last token. -/
theorem drop_eq_nil {k : Cursor} (line : k.InLine e) {context : Context}
    (token : k.token context = e) (ends : e.isInline = false) : k.rest.drop 1 = [] := by
  obtain ⟨tokens, inside, split⟩ := line
  rw [Cursor.token, split] at token
  cases tokens with
  | nil => rw [split]; rfl
  | cons t tokens =>
    have inner := inside t List.mem_cons_self
    rw [show t = e from token, ends] at inner
    cases inner

/-! ## Combination -/

theorem StaysIn.at {p : Parser α} (h : StaysIn E e p) (t : Token) : StaysAt E e t p :=
  fun k line _ => h k line

theorem staysIn_pure (a : α) : StaysIn E e (pure a) :=
  fun _ line => ⟨E.same_pure a, line, rfl⟩

theorem staysIn_exhausted : StaysIn E e (exhausted : Parser α) :=
  fun _ _ => ⟨E.same_exhausted, trivial⟩

/-- A fault stays in the line unless it takes its end. -/
theorem staysIn_fail {cause : ParseCause} {token : Token}
    (other : ParseFault.takesEnd ⟨cause, token⟩ = false) :
    StaysIn E e (fail cause token : Parser α) := by
  intro k line
  refine ⟨E.same_fail _ _, ?_, rfl⟩
  rw [if_neg (by simp [other])]
  exact line

/-- A sequence stays in the line if both of its steps do. -/
theorem staysAt_bind {p : Parser α} {f : α → Parser β} (hp : StaysAt E e t p)
    (hf : ∀ a, StaysIn E e (f a)) : StaysAt E e t (p >>= f) := by
  intro k line token
  obtain ⟨same, leaves⟩ := hp k line token
  rw [bind_eq, andThen] at *
  refine ⟨E.same_bind same fun a after reading => ?_, ?_⟩
  · rw [reading] at leaves
    exact (hf a after leaves.1).1
  · cases reading : p E.context k with
    | done a after =>
      rw [reading] at leaves
      exact leaves.2 ▸ (hf a after leaves.1).2
    | failed fault after =>
      rw [reading] at leaves
      exact leaves
    | exhausted => trivial

/-- The same without a token. -/
theorem StaysIn.bind {p : Parser α} {f : α → Parser β} (hp : StaysIn E e p)
    (hf : ∀ a, StaysIn E e (f a)) : StaysIn E e (p >>= f) :=
  fun k line => staysAt_bind (hp.at _) hf k line rfl

theorem staysIn_ite {p q : Parser α} {c : Prop} [Decidable c] (hp : StaysIn E e p)
    (hq : StaysIn E e q) : StaysIn E e (if c then p else q) := by
  split
  · exact hp
  · exact hq

/-! ## Tokens and names -/

theorem staysAt_peek_bind {f : Token → Parser β} (hf : StaysAt E e t (f t)) :
    StaysAt E e t (peek >>= f) := by
  intro k line token
  obtain ⟨same, leaves⟩ := hf k line token
  subst token
  exact ⟨E.same_peek_bind (E.token_inWhole (rest_ne_nil line)) same, leaves⟩

/-- What looks at a token stays in the line if it does at each token of it and at its end. -/
theorem staysIn_peek_bind {f : Token → Parser β}
    (hf : ∀ t, t.isInline = true ∨ t = e → StaysAt E e t (f t)) : StaysIn E e (peek >>= f) :=
  fun k line => staysAt_peek_bind (hf _ (isInline_or_eq line E.context)) k line rfl

/-- A token before the end of the line is read within it. -/
theorem staysAt_next_bind {f : Token → Parser β} (other : t ≠ e) (hf : StaysIn E e (f t)) :
    StaysAt E e t (next >>= f) := by
  intro k line token
  subst token
  obtain ⟨same, leaves⟩ := hf _ (inLine_drop line other)
  exact ⟨E.same_next_bind (rest_ne_nil line) same, leaves⟩

/-- Whatever is read at the end of the line has to be refused at once. -/
theorem staysIn_next_bind {f : Token → Parser β} (cause : ParseCause) (ends : e.isInline = false)
    (hf : ∀ t, t.isInline = true → StaysIn E e (f t)) (refused : f e = fail cause e)
    (takes : ParseFault.takesEnd ⟨cause, e⟩ = true) : StaysIn E e (next >>= f) := by
  intro k line
  by_cases token : k.token E.context = e
  · have here : f (k.token E.context) = fail cause e := token.symm ▸ refused
    refine ⟨E.same_next_bind (rest_ne_nil line) (here ▸ E.same_fail _ _), ?_⟩
    rw [next_bind, here]
    refine ⟨?_, rfl⟩
    rw [if_pos takes]
    exact drop_eq_nil line token ends
  · have inside := (isInline_or_eq line E.context).resolve_right token
    exact staysAt_next_bind token (hf _ inside) k line rfl

/-- What tests for a kind other than that of the end stays in the line. -/
theorem staysIn_sees_bind {kind : TokenKind} {f : Bool → Parser β} (other : e.kind ≠ kind)
    (yes : ∀ t, t ≠ e → t.kind = kind → StaysAt E e t (f true)) (no : StaysIn E e (f false)) :
    StaysIn E e (sees kind >>= f) := by
  intro k line
  have same : E.Same (f (decide ((k.token E.context).kind = kind))) k →
      E.Same (sees kind >>= f) k :=
    E.same_sees_bind (by rw [E.token_inWhole (rest_ne_nil line)])
  rw [sees_bind]
  by_cases found : (k.token E.context).kind = kind
  · rw [decide_eq_true found] at same ⊢
    obtain ⟨reads, leaves⟩ := yes _ (fun eq => other (eq ▸ found)) found k line rfl
    exact ⟨same reads, leaves⟩
  · rw [decide_eq_false found] at same ⊢
    obtain ⟨reads, leaves⟩ := no k line
    exact ⟨same reads, leaves⟩

theorem staysIn_isFunction (x : Expr) : StaysIn E e (isFunction x) :=
  fun _ line => ⟨E.same_isFunction x, line, rfl⟩

end Parser

namespace Grammar

open TexAlgebra.Parser

/-- Whether the parsers of a grammar that are used within a line stay in it. -/
structure StaysIn (E : Excerpt) (e : Token) (g : Grammar) : Prop where
  operand : Parser.StaysIn E e g.operand
  expression : Parser.StaysIn E e g.expression
  operators : ∀ lhs least, Parser.StaysIn E e (g.operators lhs least)
  subscripts : Parser.StaysIn E e g.subscripts
  arguments : Parser.StaysIn E e g.arguments

section

variable {E : Excerpt} {e t : Token} {g : Grammar} (ends : e.kind = .endOfStatement)

include ends in
theorem isInline_eq_false : e.isInline = false := by
  rw [Token.isInline, ends]
  rfl

include ends in
theorem ne_of_kind {kind : TokenKind} (kind_eq : t.kind = kind) (other : kind ≠ .endOfStatement) :
    t ≠ e := by
  rintro rfl
  exact other (kind_eq.symm.trans ends)

/-- A fault about a token of the line does not take the end of the line. -/
theorem takesEnd_of_isInline (inside : t.isInline = true) (cause : ParseCause) :
    ParseFault.takesEnd ⟨cause, t⟩ = false := by
  have inner : t.kind ≠ .endOfStatement := Token.kind_ne_of_isInline inside rfl
  cases cause <;> simp [ParseFault.takesEnd, inner]

include ends in
/-- The closing character that is missing at the end of the line takes the end of the line. -/
theorem staysIn_expect (kind : TokenKind) (other : kind ≠ .endOfStatement) (character : String) :
    Parser.StaysIn E e (expect kind character) := by
  refine staysIn_next_bind (.missingCharacter character) (isInline_eq_false ends)
    (fun t inside => ?_) ?_ (decide_eq_true ends)
  · have taken := takesEnd_of_isInline inside
    exact staysIn_ite (staysIn_fail (taken _)) <|
      staysIn_ite (staysIn_pure _) (staysIn_fail (taken _))
  · rw [if_neg (by simp [ends]), if_neg (by rw [ends]; exact other.symm)]

variable (hg : g.StaysIn E e)

/-! ### Operands -/

include ends hg in
theorem staysAt_identifier (kind : t.kind = .identifier) : StaysAt E e t (identifier g) :=
  staysAt_next_bind (ne_of_kind ends kind nofun) <| hg.subscripts.bind fun _ => staysIn_pure _

include ends hg in
theorem staysIn_subscriptsStep : Parser.StaysIn E e (subscriptsStep g) := by
  refine staysIn_sees_bind (ends.trans_ne nofun) (fun t other _ => ?_) (staysIn_pure _)
  refine staysAt_next_bind other <| staysIn_peek_bind fun following inside => ?_
  cases kind : following.kind with
  | braceOpen =>
    -- a line has no groups
    rcases inside with inside | rfl
    · exact absurd kind (Token.kind_ne_of_isInline inside rfl)
    · cases kind.symm.trans ends
  | identifier | number =>
    exact staysAt_next_bind (ne_of_kind ends kind nofun) <|
      hg.subscripts.bind fun _ => staysIn_pure _
  | _ => exact (staysIn_fail rfl).at _

include ends hg in
theorem staysIn_callArguments : Parser.StaysIn E e (callArguments g) :=
  (staysIn_expect ends .parenOpen nofun _).bind fun _ => staysIn_sees_bind (ends.trans_ne nofun)
    (fun _ other _ => staysAt_next_bind other (staysIn_pure _)) hg.arguments

include ends hg in
theorem staysAt_name (kind : t.kind = .identifier) : StaysAt E e t (name g) := by
  refine staysAt_bind (staysAt_identifier ends hg kind) fun x => ?_
  refine staysIn_sees_bind (ends.trans_ne nofun) (fun _ _ _ => StaysIn.at ?_ _) (staysIn_pure _)
  exact (staysIn_isFunction x).bind fun _ => staysIn_ite (staysIn_pure _) <|
    (staysIn_callArguments ends hg).bind fun _ => staysIn_pure _

include ends in
theorem staysAt_number (kind : t.kind = .number) : StaysAt E e t number :=
  staysAt_next_bind (ne_of_kind ends kind nofun) (staysIn_pure _)

include ends hg in
theorem staysAt_parenthesized (kind : t.kind = .parenOpen) :
    StaysAt E e t (parenthesized g) :=
  staysAt_next_bind (ne_of_kind ends kind nofun) <| hg.expression.bind fun _ =>
    (staysIn_expect ends .parenClose nofun _).bind fun _ => staysIn_pure _

include ends hg in
theorem staysAt_signed {op : Operator} (kind : t.kind = .operator op) :
    StaysAt E e t (signed g g.operand) := by
  refine staysAt_next_bind (ne_of_kind ends kind nofun) ?_
  rw [kind]
  refine staysIn_ite (hg.operand.bind fun _ => ?_) (staysIn_fail rfl)
  exact staysIn_ite (staysIn_pure _) <| (hg.operators _ _).bind fun _ => staysIn_pure _

include ends hg in
/-- An operand stays in the line. -/
theorem staysIn_operandStep : Parser.StaysIn E e (operandStep g) := by
  refine staysIn_peek_bind fun t inside => ?_
  cases kind : t.kind with
  | controlWord =>
    -- a line has no control words
    rcases inside with inside | rfl
    · exact absurd kind (Token.kind_ne_of_isInline inside rfl)
    · cases kind.symm.trans ends
  | operator op => exact staysAt_signed ends hg kind
  | identifier => exact staysAt_name ends hg kind
  | number => exact staysAt_number ends kind
  | parenOpen => exact staysAt_parenthesized ends hg kind
  | _ => exact (staysIn_fail rfl).at _

/-! ### Expressions -/

include ends in
theorem staysAt_operatorToken : StaysAt E e t operatorToken := by
  refine staysAt_peek_bind ?_
  cases kind : t.kind with
  | operator op =>
    have read : StaysAt E e t (next >>= fun token => pure token) :=
      staysAt_next_bind (ne_of_kind ends kind nofun) (staysIn_pure _)
    rwa [bind_pure] at read
  | _ => exact (staysIn_pure _).at _

include hg in
theorem staysIn_rightOperand (op : Operator) (rhs : Expr) :
    Parser.StaysIn E e (rightOperand g op rhs) :=
  staysIn_peek_bind fun _ _ => (staysIn_ite (hg.operators _ _) (staysIn_pure _)).at _

include ends hg in
/-- A chain of operators stays in the line. -/
theorem staysIn_operatorsStep (lhs : Expr) (least : Nat) :
    Parser.StaysIn E e (operatorsStep g lhs least) := by
  refine staysIn_peek_bind fun t _ => ?_
  split
  · exact (staysIn_pure _).at _
  · split
    · exact (staysIn_pure _).at _
    · exact staysAt_bind (staysAt_operatorToken ends) fun _ =>
        (staysIn_operandStep ends hg).bind fun _ => staysIn_ite (staysIn_pure _) <|
          (staysIn_rightOperand hg _ _).bind fun _ => hg.operators _ _

include ends hg in
/-- An expression stays in the line. -/
theorem staysIn_expressionStep : Parser.StaysIn E e (expressionStep g) :=
  (staysIn_operandStep ends hg).bind fun _ =>
    staysIn_ite (staysIn_pure _) (staysIn_operatorsStep ends hg _ _)

include ends hg in
/-- A separator that is missing at the end of the line takes the end of the line. -/
theorem staysIn_argumentsStep : Parser.StaysIn E e (argumentsStep g) := by
  refine (staysIn_expressionStep ends hg).bind fun _ =>
    staysIn_next_bind .badArgumentList (isInline_eq_false ends) (fun separator inside => ?_) ?_
      (decide_eq_true ends)
  · have taken := takesEnd_of_isInline inside
    split
    · exact staysIn_pure _
    · exact hg.arguments.bind fun _ => staysIn_pure _
    · exact staysIn_fail (taken _)
    · exact staysIn_fail (taken _)
  · rw [ends]

include ends hg in
/-- One more level stays in the line. -/
theorem staysIn_step : (step g).StaysIn E e where
  operand := staysIn_operandStep ends hg
  expression := staysIn_expressionStep ends hg
  operators := staysIn_operatorsStep ends hg
  subscripts := staysIn_subscriptsStep ends hg
  arguments := staysIn_argumentsStep ends hg

theorem staysIn_none : none.StaysIn E e where
  operand := staysIn_exhausted
  expression := staysIn_exhausted
  operators _ _ := staysIn_exhausted
  subscripts := staysIn_exhausted
  arguments := staysIn_exhausted

include ends in
/-- All levels stay in the line. -/
theorem staysIn_ofDepth (depth : Nat) : (ofDepth depth).StaysIn E e := by
  induction depth with
  | zero => exact staysIn_none
  | succ depth ih => exact staysIn_step ends ih

end

end Grammar

/-- An expression is read within the line that it stands in. -/
theorem Parser.staysIn_expression {E : Excerpt} {e : Token} (ends : e.kind = .endOfStatement) :
    StaysIn E e expression := by
  intro k line
  let depth := (E.inWhole k).rest.length + 1
  obtain ⟨same, leaves⟩ := (Grammar.staysIn_ofDepth ends depth).expression k line
  refine ⟨E.same_expression same, ?_⟩
  rwa [expression_eq_ofDepth E.context (Nat.lt_succ_of_le E.length_rest_le)]

end TexAlgebra
