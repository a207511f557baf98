import TexAlgebra.Parser.Depth
import TexAlgebra.Proofs.Sourced.Expression
import TexAlgebra.Proofs.Token.Texts
/-!
# Expressions that are read

What is read from the tokens of a text has every property that is kept by what the grammar builds
from them, and a fault is reported at one of them, which may be the one that ends the text
(`Parser.yields_expression_of_made`). One such property is that an expression comes from the text
(`Expr.isMade_isSourced`): the tokens of the nodes are tokens of the text, or the products that are
implied in front of them.
-/

namespace TexAlgebra

variable {S : Token → Prop} {α β : Type} {Q : α → Prop} {R : β → Prop}

/-- Whether the tokens that can be seen from a cursor are in `S`. -/
structure Cursor.IsIn (S : Token → Prop) (context : Context) (cursor : Cursor) : Prop where
  ending : S (.ending context.ending)
  rest : ∀ t ∈ cursor.rest, S t

/-- Whether a reading ends with a result that has the property `Q`, or fails at a token in `S`, and
leaves tokens in `S` behind. -/
def Reading.Yields (S : Token → Prop) (Q : α → Prop) : Reading α → Prop
  | .done a cursor => Q a ∧ ∀ t ∈ cursor.rest, S t
  | .failed fault cursor => S fault.token ∧ ∀ t ∈ cursor.rest, S t
  | .exhausted => True

/-- Where all tokens are of `S`, so is the next one. -/
theorem Cursor.IsIn.token {context : Context} {cursor : Cursor} (h : cursor.IsIn S context) :
    S (cursor.token context) := by
  unfold Cursor.token
  cases left : cursor.rest with
  | nil => exact h.ending
  | cons t rest => exact h.rest t (left ▸ List.mem_cons_self)

namespace Parser

/-- Whether the parser reads what has the property `Q` from tokens in `S`, and fails at such tokens.
-/
def Yields (S : Token → Prop) (p : Parser α) (Q : α → Prop) : Prop :=
  ∀ context cursor, cursor.IsIn S context → (p context cursor).Yields S Q

/-- Whether the parser does so where `token` is next. -/
def YieldsAt (S : Token → Prop) (token : Token) (p : Parser α) (Q : α → Prop) : Prop :=
  ∀ context cursor, cursor.IsIn S context → cursor.token context = token →
    (p context cursor).Yields S Q

/-! ## Combination -/

theorem Yields.at {p : Parser α} (h : p.Yields S Q) (token : Token) : p.YieldsAt S token Q :=
  fun context cursor within _ => h context cursor within

theorem yields_pure {a : α} (h : Q a) : (pure a : Parser α).Yields S Q :=
  fun _ _ within => ⟨h, within.rest⟩

theorem yields_fail {cause : ParseCause} {token : Token} (h : S token) :
    (fail cause token : Parser α).Yields S Q :=
  fun _ _ within => ⟨h, within.rest⟩

theorem yields_exhausted : (exhausted : Parser α).Yields S Q := fun _ _ _ => trivial

theorem yields_ite {p q : Parser α} {c : Prop} [Decidable c] (hp : p.Yields S Q)
    (hq : q.Yields S Q) : (if c then p else q).Yields S Q := by
  split
  · exact hp
  · exact hq

/-- A sequence yields what its last step does for results of the first. -/
theorem YieldsAt.bind {token : Token} {p : Parser α} {f : α → Parser β}
    (hp : p.YieldsAt S token Q) (hf : ∀ a, Q a → (f a).Yields S R) :
    (p >>= f).YieldsAt S token R := by
  intro context cursor within there
  have before := hp context cursor within there
  rw [bind_eq, andThen]
  cases reading : p context cursor with
  | done a middle =>
    rw [reading] at before
    exact hf a before.1 context middle ⟨within.ending, before.2⟩
  | failed fault middle =>
    rw [reading] at before
    exact before
  | exhausted => trivial

/-- The same without a token. -/
theorem Yields.bind {p : Parser α} {f : α → Parser β} (hp : p.Yields S Q)
    (hf : ∀ a, Q a → (f a).Yields S R) : (p >>= f).Yields S R :=
  fun context cursor within => (hp.at _).bind hf context cursor within rfl

/-! ## Single tokens -/

/-- What looks at a token yields what it does for every token of `S`. -/
theorem yields_peek_bind {f : Token → Parser β} (h : ∀ t, S t → (f t).YieldsAt S t R) :
    (peek >>= f).Yields S R :=
  fun context cursor within => h _ within.token context cursor within rfl

theorem yieldsAt_peek_bind {token : Token} {f : Token → Parser β}
    (h : (f token).YieldsAt S token R) : (peek >>= f).YieldsAt S token R := by
  rintro context cursor within rfl
  exact h context cursor within rfl

theorem yieldsAt_next_bind {token : Token} {f : Token → Parser β} (h : (f token).Yields S R) :
    (next >>= f).YieldsAt S token R := by
  rintro context cursor within rfl
  exact h context _ ⟨within.ending, fun t ht => within.rest t (List.mem_of_mem_drop ht)⟩

/-- What reads a token yields what it does for every token of `S`. -/
theorem yields_next_bind {f : Token → Parser β} (h : ∀ t, S t → (f t).Yields S R) :
    (next >>= f).Yields S R :=
  fun context cursor within => yieldsAt_next_bind (h _ within.token) context cursor within rfl

theorem yields_sees_bind {kind : TokenKind} {f : Bool → Parser β}
    (h : ∀ t, S t → (f (decide (t.kind = kind))).YieldsAt S t R) :
    (sees kind >>= f).Yields S R :=
  yields_peek_bind h

theorem yields_sees (kind : TokenKind) : (sees kind).Yields S fun _ => True :=
  yields_peek_bind fun _ _ => (yields_pure trivial).at _

theorem yields_skipEnds : skipEnds.Yields S fun _ => True :=
  fun _ _ within => ⟨trivial, fun t ht => within.rest t ((List.dropWhile_sublist _).mem ht)⟩

theorem yields_define (name : Expr) : (define name).Yields S fun _ => True :=
  fun _ _ within => ⟨trivial, within.rest⟩

theorem yields_isFunction (x : Expr) : (isFunction x).Yields S fun _ => True :=
  fun _ _ within => ⟨trivial, within.rest⟩

/-- What is expected is a token of `S`, and so is what is found instead. -/
theorem yields_expect (kind : TokenKind) (character : String) :
    (expect kind character).Yields S S :=
  yields_next_bind fun _ ht =>
    yields_ite (yields_fail ht) (yields_ite (yields_pure ht) (yields_fail ht))

end Parser

/-! ## Expressions -/

namespace Expr

/-- Whether all that the grammar builds from tokens in `S` has the property `P`, given that its
parts have it. -/
structure IsMade (S : Token → Prop) (P : Expr → Prop) : Prop where
  number {t : Token} (mem : S t) (same : t.kind = .number) : P (.number t.text (some t))
  var {t : Token} {subscripts : List Expr} (mem : S t) (same : t.kind = .identifier)
    (all : ∀ e ∈ subscripts, P e) : P (.var t.text subscripts (some t))
  unary {t : Token} {op : Operator} {operand : Expr} (mem : S t) (sign : op.isSign = true)
    (inner : P operand) : P (.unary op operand (some t))
  binary {t : Token} {op : Operator} {lhs rhs : Expr} (left : P lhs) (right : P rhs)
    (placed : t.IsOf S) : P (.binary op lhs rhs (some t))
  group {t : Token} {items : List Expr} (mem : S t) (all : ∀ e ∈ items, P e) :
    P (.group items (some t))
  /-- The items of a group may stand by themselves. -/
  items {items : List Expr} {token : Option Token} (group : P (.group items token)) :
    ∀ e ∈ items, P e
  command {t : Token} {arguments : List Expr} (mem : S t) (same : t.kind = .controlWord)
    (all : ∀ e ∈ arguments, P e) : P (.command t.text arguments (some t))
  block {t : Token} {name : String} {arguments : List String} {statements : List Expr}
    (mem : S t) (all : ∀ e ∈ statements, P e) : P (.block name arguments statements (some t))
  function {t head : Token} {name body : Expr} {parameters : List Expr} (named : P name)
    (all : ∀ p ∈ parameters, P p) (headed : S head) (inner : P body) (mem : S t) :
    P (.function .defined name parameters (some head) body [] (some t))
  /-- A call has the token of the name that is called. -/
  call {callee : Expr} {arguments : List Expr} (called : P callee)
    (all : ∀ e ∈ arguments, P e) : P (.call callee arguments callee.token)
  binding {t : Token} {target value : Expr} (bound : P target) (inner : P value) (mem : S t) :
    P (.binding target value (some t))

/-- Whether the expressions all have the property. -/
abbrev Are (P : Expr → Prop) (es : List Expr) : Prop := ∀ e ∈ es, P e

variable {P : Expr → Prop}

theorem are_nil : Are P [] := fun _ h => (List.not_mem_nil h).elim

theorem Are.cons {e : Expr} {es : List Expr} (he : P e) (hes : Are P es) : Are P (e :: es) :=
  List.forall_mem_cons.2 ⟨he, hes⟩

/-- What a group holds alone is made like the group. -/
theorem IsMade.unwrap (made : IsMade S P) {e item : Expr} (h : P e)
    (single : e.unwrap? = some item) : P item := by
  unfold unwrap? at single
  split at single
  · cases single
  · cases single
    exact made.items h _ List.mem_cons_self
  · cases single
    exact h

/-- What comes from tokens that were cut out of a text is made of what comes from them. -/
theorem isMade_isSourced (lexed : ∀ t, S t → t.IsLexed) : IsMade S (IsSourced S) where
  number mem same :=
    .number (.given ⟨_, mem, same, rfl⟩ ((lexed _ mem).written same)) (isPlaced_of_mem mem)
  var mem same all :=
    .var ((lexed _ mem).nonempty (same ▸ nofun)) all (isPlaced_of_mem mem)
  unary mem sign inner := .unary sign inner (isPlaced_of_mem mem)
  binary left right placed := .binary left right ⟨_, rfl, placed⟩
  group mem all := .group all (isPlaced_of_mem mem)
  items group := by
    cases group with
    | group all _ => exact all
  command mem same all :=
    .command ((lexed _ mem).nonempty (same ▸ nofun)) all (isPlaced_of_mem mem)
  block mem all := .block all (isPlaced_of_mem mem)
  function named all headed inner mem :=
    .function named all (isPlaced_of_mem headed) inner (isPlaced_of_mem mem)
  call called all := .call called all called.placed
  binding bound inner mem := .binding bound inner (isPlaced_of_mem mem)

end Expr

namespace Grammar

open TexAlgebra.Parser TexAlgebra.Expr

variable {P : Expr → Prop}

/-- Whether every parser of the grammar reads expressions with the property `P`. -/
structure Yields (S : Token → Prop) (P : Expr → Prop) (g : Grammar) : Prop where
  operand : g.operand.Yields S P
  expression : g.expression.Yields S P
  operators : ∀ {lhs : Expr}, P lhs → ∀ least, (g.operators lhs least).Yields S P
  subscripts : g.subscripts.Yields S (Are P)
  arguments : g.arguments.Yields S (Are P)
  items : ∀ commas, (g.items commas).Yields S (Are P)
  groups : g.groups.Yields S (Are P)
  parameters : g.parameters.Yields S (Are P)
  statements : ∀ {opening : Token}, S opening → ∀ name,
    (g.statements opening name).Yields S (Are P)

/-- A fault in groups kept as text is at a token of `S`. -/
theorem token_of_readTexts {ending : Position} (ended : S (.ending ending)) (rest : List Token)
    {fault : ParseFault} (h : (readTexts ending rest).1 = .error fault) : S fault.token := by
  -- the only fault is that a group is not closed, at the end of the text
  fun_induction readTexts ending rest with
  | case1 => cases h
  | case2 =>
    cases h
    exact ended
  | case3 token rest braced inside after left later further read ih =>
    rw [read] at ih
    cases later with
    | error first =>
      cases h
      exact ih rfl
    | ok _ => cases h
  | case4 => cases h

theorem yields_texts : texts.Yields S fun _ => True := by
  intro context cursor within
  have fewer : ∀ t ∈ (readTexts context.ending cursor.rest).2, S t := fun t ht =>
    within.rest t ((readTexts_suffix context.ending cursor.rest).mem ht)
  have faulty : ∀ fault, (readTexts context.ending cursor.rest).1 = .error fault →
      S fault.token := fun _ => token_of_readTexts within.ending cursor.rest
  unfold texts
  revert fewer faulty
  rcases readTexts context.ending cursor.rest with ⟨fault | _, rest⟩
  · exact fun fewer faulty => ⟨faulty fault rfl, fewer⟩
  · exact fun fewer _ => ⟨trivial, fewer⟩

section

variable {g : Grammar} (hg : g.Yields S P) (made : IsMade S P)
include hg made

/-! ## Names -/

theorem yieldsAt_identifier {token : Token} (ht : S token) (same : token.kind = .identifier) :
    (identifier g).YieldsAt S token P :=
  yieldsAt_next_bind <| hg.subscripts.bind fun _ all =>
    yields_pure (made.var ht same all)

theorem yields_subscriptsStep : (subscriptsStep g).Yields S (Are P) := by
  refine (yields_sees _).bind fun _ _ => yields_ite (yields_pure are_nil) ?_
  refine yields_next_bind fun _ _ => yields_peek_bind fun following ht => ?_
  split
  · refine yieldsAt_next_bind <| (hg.items _).bind fun _ items =>
      hg.subscripts.bind fun _ later => yields_pure fun e he => ?_
    exact (List.mem_append.1 he).elim (items e) (later e)
  · next same =>
    refine yieldsAt_next_bind <| hg.subscripts.bind fun _ later => yields_pure (.cons ?_ later)
    exact made.var ht same are_nil
  · next same =>
    refine yieldsAt_next_bind <| hg.subscripts.bind fun _ later => yields_pure (.cons ?_ later)
    exact made.number ht same
  · exact (yields_fail ht).at _
  · exact (yields_fail ht).at _

/-! ## Groups -/

theorem yields_braced (commas : Bool) : (braced g commas).Yields S P :=
  (yields_expect _ _).bind fun _ ht => (hg.items _).bind fun _ all =>
    yields_pure (made.group ht all)

theorem yields_groupsStep : (groupsStep g).Yields S (Are P) :=
  (yields_sees _).bind fun _ _ => yields_ite (yields_pure are_nil) <|
    yields_next_bind fun _ ht => (hg.items _).bind fun _ all => hg.groups.bind fun _ later =>
      yields_pure (.cons (made.group ht all) later)

/-! ## Control words -/

variable {token : Token} (ht : S token)
include ht

theorem yields_fraction : (fraction g token).Yields S P := by
  refine hg.groups.bind fun _ all => ?_
  split
  · next a b =>
    obtain ⟨ha, all⟩ := List.forall_mem_cons.1 all
    obtain ⟨hb, -⟩ := List.forall_mem_cons.1 all
    split
    · next numerator denominator above below =>
      exact yields_pure (made.binary (made.unwrap ha above) (made.unwrap hb below) (.inl ht))
    · exact yields_fail ht
  · exact yields_fail ht

theorem yields_binding : (binding g token).Yields S P := by
  refine hg.groups.bind fun _ all => ?_
  split
  · next a b =>
    obtain ⟨ha, all⟩ := List.forall_mem_cons.1 all
    obtain ⟨hb, -⟩ := List.forall_mem_cons.1 all
    split
    · exact yields_fail ht
    · exact yields_fail ht
    · next target value first second =>
      have noted : (noteFunction target value).Yields S fun _ => True :=
        yields_ite (yields_define _) (yields_pure trivial)
      have named := made.unwrap ha (Option.filter_eq_some_iff.1 first).1
      exact yields_ite (yields_fail ht) <| noted.bind fun _ _ =>
        yields_pure (made.binding named (made.unwrap hb second) ht)
  · exact yields_fail ht

omit ht in
/-- The name, the parameters and the token of a prototype come from the tokens. -/
theorem yields_prototype : (prototype g).Yields S fun r =>
    P r.1 ∧ Are P r.2.1 ∧ S r.2.2 := by
  refine yields_peek_bind fun token ht => ?_
  split
  · exact (yields_fail ht).at _
  split
  · exact (yields_fail ht).at _
  · next same =>
    exact (yieldsAt_identifier hg made ht (not_not.1 same)).bind fun _ named =>
      (yields_expect _ _).bind fun _ _ => hg.parameters.bind fun _ all =>
        yields_pure ⟨named, all, ht⟩

omit ht in
theorem yields_parametersStep : (parametersStep g).Yields S (Are P) := by
  refine yields_sees_bind fun token ht => ?_
  split
  · exact ((yields_expect _ _).bind fun _ _ => yields_pure are_nil).at _
  · next same =>
    refine (yieldsAt_identifier hg made ht (by simpa using same)).bind fun parameter hp =>
      yields_next_bind fun separator hs => ?_
    split
    · exact yields_pure (.cons hp are_nil)
    · exact hg.parameters.bind fun _ all => yields_pure (.cons hp all)
    · exact yields_fail hs

theorem yields_function : (function g token).Yields S P := by
  refine (yields_expect _ _).bind fun _ _ => (yields_prototype hg made).bind fun r hr =>
    (yields_expect _ _).bind fun _ _ => (yields_define _).bind fun _ _ =>
      (yields_braced hg made _).bind fun e he => ?_
  obtain ⟨named, all, headed⟩ := hr
  split
  · next body single =>
    exact yields_ite (yields_fail ht) (yields_pure
      (made.function named all headed (made.unwrap he single) ht))
  · exact yields_fail ht

theorem yields_block : (block g token).Yields S P := by
  refine yields_texts.bind fun _ _ => ?_
  split
  · exact yields_fail ht
  · exact (hg.statements ht _).bind fun _ all => yields_pure (made.block ht all)

theorem yields_afterControlWord (same : token.kind = .controlWord) :
    (afterControlWord g token).Yields S P := by
  unfold afterControlWord
  split
  · exact yields_block hg made ht
  · exact yields_function hg made ht
  · exact yields_fraction hg made ht
  · exact yields_binding hg made ht
  · exact hg.groups.bind fun _ all => yields_pure (made.command ht same all)

theorem yieldsAt_controlWord (same : token.kind = .controlWord) :
    (controlWord g).YieldsAt S token P := by
  refine yieldsAt_peek_bind ?_
  split
  · exact (yields_fail ht).at _
  · exact yieldsAt_next_bind
      (yields_afterControlWord hg made ht same)

/-! ## Operands -/

omit made ht in
theorem yields_parenthesized : (parenthesized g).Yields S P :=
  yields_next_bind fun _ _ => hg.expression.bind fun _ he => (yields_expect _ _).bind fun _ _ =>
    yields_pure he

omit made ht in
theorem yields_callArguments : (callArguments g).Yields S (Are P) :=
  (yields_expect _ _).bind fun _ _ => (yields_sees _).bind fun _ _ =>
    yields_ite (yields_next_bind fun _ _ => yields_pure are_nil) hg.arguments

theorem yieldsAt_name (same : token.kind = .identifier) :
    (name g).YieldsAt S token P :=
  (yieldsAt_identifier hg made ht same).bind fun _ hx => (yields_sees _).bind fun _ _ =>
    yields_ite (yields_pure hx) <| (yields_isFunction _).bind fun _ _ =>
      yields_ite (yields_pure hx) <| (yields_callArguments hg).bind fun _ all =>
        yields_pure (made.call hx all)

omit hg in
theorem yieldsAt_number (same : token.kind = .number) :
    number.YieldsAt S token P :=
  yieldsAt_next_bind (yields_pure (made.number ht same))

omit ht in
theorem yields_signed : (signed g g.operand).Yields S P := by
  refine yields_next_bind fun token ht => ?_
  split
  · split
    · next op _ sign =>
      exact hg.operand.bind fun _ he => yields_ite
        (yields_pure (made.unary ht sign he)) <|
        (hg.operators he _).bind fun _ he' => yields_pure (made.unary ht sign he')
    · exact yields_fail ht
  · exact yields_fail ht

omit ht in
/-- An operand is made of what its parts are. -/
theorem yields_operandStep : (operandStep g).Yields S P := by
  refine yields_peek_bind fun token ht => ?_
  split
  · next same => exact yieldsAt_controlWord hg made ht same
  · exact (yields_signed hg made).at _
  · next same => exact yieldsAt_name hg made ht same
  · next same => exact yieldsAt_number made ht same
  · exact (yields_parenthesized hg).at _
  · exact (yields_fail ht).at _
  · exact (yields_fail ht).at _
  · exact (yields_fail ht).at _

/-! ## Expressions -/

omit hg made ht in
theorem yields_operatorToken : operatorToken.Yields S (Token.IsOf S) := by
  refine yields_peek_bind fun token ht => ?_
  split
  · exact fun _ _ within there =>
      ⟨.inl (there ▸ ht), fun t ht => within.rest t (List.mem_of_mem_drop ht)⟩
  · exact (yields_pure (.inr ⟨token, ht, rfl⟩)).at _

omit made ht in
theorem yields_rightOperand (op : Operator) {rhs : Expr} (h : P rhs) :
    (rightOperand g op rhs).Yields S P :=
  yields_peek_bind fun _ _ => (yields_ite (hg.operators h _) (yields_pure h)).at _

omit ht in
/-- A chain of operators is made of its operands. -/
theorem yields_operatorsStep {lhs : Expr} (h : P lhs) (least : Nat) :
    (operatorsStep g lhs least).Yields S P := by
  refine yields_peek_bind fun _ _ => ?_
  split
  · exact (yields_pure h).at _
  · refine (yields_ite (yields_pure h) ?_).at _
    exact yields_operatorToken.bind fun token ht =>
      (yields_operandStep hg made).bind fun rhs hr =>
        yields_ite (yields_pure (made.binary h hr ht)) <|
          (yields_rightOperand hg _ hr).bind fun _ hr' =>
            hg.operators (made.binary h hr' ht) _

omit ht in
/-- An expression is made of its operands. -/
theorem yields_expressionStep : (expressionStep g).Yields S P :=
  (yields_operandStep hg made).bind fun _ he =>
    yields_ite (yields_pure he) (yields_operatorsStep hg made he _)

/-! ## Lists of expressions -/

omit ht in
theorem yields_argumentsStep : (argumentsStep g).Yields S (Are P) := by
  refine (yields_expressionStep hg made).bind fun _ he => yields_next_bind fun _ hs => ?_
  split
  · exact yields_pure (.cons he are_nil)
  · exact hg.arguments.bind fun _ all => yields_pure (.cons he all)
  · exact yields_fail hs
  · exact yields_fail hs

omit ht in
theorem yields_itemsStep (commas : Bool) : (itemsStep g commas).Yields S (Are P) := by
  refine yields_skipEnds.bind fun _ _ => yields_peek_bind fun _ hf => Yields.at ?_ _
  exact yields_ite (yields_next_bind fun _ _ => yields_pure are_nil) <|
    yields_ite (yields_fail hf) <|
      yields_ite (yields_next_bind fun _ _ => hg.items _) <|
        (yields_expressionStep hg made).bind fun _ he => (hg.items _).bind fun _ all =>
          yields_pure (.cons he all)

omit hg made ht in
theorem yields_closing (name : String) : (closing name).Yields S (Are P) :=
  yields_next_bind fun _ hc => yields_texts.bind fun _ _ =>
    yields_ite (yields_pure are_nil) (yields_fail hc)

theorem yields_statementsStep (name : String) :
    (statementsStep g token name).Yields S (Are P) := by
  refine yields_skipEnds.bind fun _ _ => yields_peek_bind fun _ _ => Yields.at ?_ _
  exact yields_ite (yields_closing _) <| yields_ite (yields_fail ht) <|
    (yields_expressionStep hg made).bind fun _ he => (hg.statements ht _).bind fun _ all =>
      yields_pure (.cons he all)

omit ht in
/-- One more level makes expressions of tokens of `S`. -/
theorem yields_step : (step g).Yields S P where
  operand := yields_operandStep hg made
  expression := yields_expressionStep hg made
  operators := yields_operatorsStep hg made
  subscripts := yields_subscriptsStep hg made
  arguments := yields_argumentsStep hg made
  items := yields_itemsStep hg made
  groups := yields_groupsStep hg made
  parameters := yields_parametersStep hg made
  statements := yields_statementsStep hg made

end

theorem yields_none : none.Yields S P where
  operand := yields_exhausted
  expression := yields_exhausted
  operators _ _ := yields_exhausted
  subscripts := yields_exhausted
  arguments := yields_exhausted
  items _ := yields_exhausted
  groups := yields_exhausted
  parameters := yields_exhausted
  statements _ _ := yields_exhausted

/-- All levels make expressions of tokens of `S`. -/
theorem yields_ofDepth (made : IsMade S P) (depth : Nat) : (ofDepth depth).Yields S P := by
  induction depth with
  | zero => exact yields_none
  | succ depth ih => exact yields_step ih made

end Grammar

/-- What is read has every property that is kept by what the grammar builds. -/
theorem Parser.yields_expression_of_made {P : Expr → Prop} (made : Expr.IsMade S P) :
    expression.Yields S P := fun context cursor =>
  (Grammar.yields_ofDepth made _).expression context cursor

end TexAlgebra
