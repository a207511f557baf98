import TexAlgebra.Parser.Depth
import TexAlgebra.Proofs.Numeral.Legible
import TexAlgebra.Proofs.Printer.RoundTrip
/-!
# Terms

Terms are the expressions without definitions, calls and lists (`Expr.IsTerm`). Nothing else is read
from tokens among which no control word begins one of these, where no function is known
(`Parser.buildsTerms_expression`). A group is never read as an expression, but a group with several
items stays what it is where a fraction takes it for an operand.
-/

namespace TexAlgebra

variable {α β : Type} {Q : α → Prop} {R : β → Prop}

namespace Expr

/-! ## Terms -/

/-- The items of a group, and every other expression by itself. -/
def members : Expr → List Expr
  | group items _ => items
  | e => [e]

/-- The expressions that are read where nothing is defined: numbers that can be written out, names
with subscripts, signs, operations, and control words with their groups. An operand of an operation
may be a group of terms as well. -/
inductive IsTerm : Expr → Prop
  | number {text : String} {token : Option Token} (legible : Numeral.IsLegible text) :
    IsTerm (.number text token)
  | var {name : String} {subscripts : List Expr} {token : Option Token} (letters : IsName name)
      (all : ∀ e ∈ subscripts, IsTerm e) : IsTerm (.var name subscripts token)
  | unary {op : Operator} {operand : Expr} {token : Option Token} (sign : op.isSign = true)
      (inner : IsTerm operand) : IsTerm (.unary op operand token)
  | binary {op : Operator} {lhs rhs : Expr} {token : Option Token}
      (left : ∀ e ∈ lhs.members, IsTerm e) (right : ∀ e ∈ rhs.members, IsTerm e) :
    IsTerm (.binary op lhs rhs token)
  | command {name : String} {arguments : List Expr} {token : Option Token} (word : IsCommand name)
      (grouped : ∀ g ∈ arguments, g.isGroup = true)
      (all : ∀ g ∈ arguments, ∀ e ∈ g.members, IsTerm e) : IsTerm (.command name arguments token)

variable {e : Expr}

/-- Whether the expressions are all terms. -/
abbrev AreTerms (es : List Expr) : Prop := ∀ e ∈ es, e.IsTerm

/-- Whether the expressions are all groups of terms. -/
abbrev AreGroups (gs : List Expr) : Prop :=
  (∀ g ∈ gs, g.isGroup = true) ∧ ∀ g ∈ gs, AreTerms g.members

theorem areTerms_nil : AreTerms [] := fun _ h => (List.not_mem_nil h).elim

/-- One more term is a term of the list. -/
theorem AreTerms.cons {es : List Expr} (first : e.IsTerm) (later : AreTerms es) :
    AreTerms (e :: es) :=
  List.forall_mem_cons.2 ⟨first, later⟩

/-- A term is no group. -/
theorem IsTerm.areTerms_members (h : e.IsTerm) : AreTerms e.members := by
  have alone : e.members = [e] := by cases h <;> rfl
  rw [alone]
  exact areTerms_nil.cons h

/-- An operation on terms is a term. -/
theorem IsTerm.binary_of_terms {op : Operator} {lhs rhs : Expr} {token : Option Token}
    (left : lhs.IsTerm) (right : rhs.IsTerm) : IsTerm (.binary op lhs rhs token) :=
  .binary left.areTerms_members right.areTerms_members

/-- What is no group is its own member. -/
theorem mem_members_self (h : e.isGroup = false) : e ∈ e.members := by
  cases e with
  | group => cases h
  | _ => exact List.mem_singleton_self _

/-- What a fraction takes from a group is a term or the group itself. -/
theorem areTerms_members_of_unwrap? {g item : Expr} (group : g.isGroup = true)
    (all : AreTerms g.members) (single : g.unwrap? = some item) : AreTerms item.members := by
  unfold unwrap? at single
  split at single
  · cases single
  · cases single
    exact (all item (List.mem_singleton_self item)).areTerms_members
  · cases single
    exact all

end Expr

/-! ## Tokens that define nothing -/

/-- Whether a token is as one of a text is, and begins neither a definition nor a list. Its number,
if it is one, can be written out. -/
structure Token.IsOrdinary (t : Token) : Prop where
  name : t.kind = .identifier → Expr.IsName t.text
  number : t.kind = .number → Numeral.IsLegible t.text
  word : t.kind = .controlWord → t.text ∈ ["\\frac", "\\end"] ∨ Expr.IsCommand t.text

/-- The end of a text defines nothing. -/
theorem Token.isOrdinary_ending (p : Position) : (Token.ending p).IsOrdinary :=
  ⟨nofun, nofun, nofun⟩

/-- Whether a cursor stands in front of such tokens alone, and no function is known there. -/
structure Cursor.IsOrdinary (context : Context) (cursor : Cursor) : Prop where
  unknown : ∀ x, context.known x = false
  undefined : cursor.functions = []
  rest : ∀ t ∈ cursor.rest, t.IsOrdinary

/-- Among ordinary tokens the next one is ordinary. -/
theorem Cursor.IsOrdinary.token {context : Context} {cursor : Cursor}
    (h : cursor.IsOrdinary context) : (cursor.token context).IsOrdinary := by
  unfold Cursor.token
  cases left : cursor.rest with
  | nil => exact Token.isOrdinary_ending _
  | cons t rest => exact h.rest t (left ▸ List.mem_cons_self)

/-- Fewer ordinary tokens are ordinary. -/
theorem Cursor.IsOrdinary.of_sublist {context : Context} {cursor : Cursor} {rest : List Token}
    (h : cursor.IsOrdinary context) (fewer : rest.Sublist cursor.rest) :
    Cursor.IsOrdinary context { cursor with rest := rest } :=
  ⟨h.unknown, h.undefined, fun t ht => h.rest t (fewer.mem ht)⟩

namespace Parser

/-- Whether what the parser reads where nothing is defined has the property `Q`, and still nothing
is defined behind it. -/
def Builds (p : Parser α) (Q : α → Prop) : Prop :=
  ∀ context cursor a after, cursor.IsOrdinary context → p context cursor = .done a after →
    Q a ∧ after.IsOrdinary context

/-- Whether this is so where `token` is next. -/
def BuildsAt (token : Token) (p : Parser α) (Q : α → Prop) : Prop :=
  ∀ context cursor a after, cursor.IsOrdinary context → cursor.token context = token →
    p context cursor = .done a after → Q a ∧ after.IsOrdinary context

/-! ## Combination -/

variable {p q : Parser α} {f : α → Parser β} {token : Token}

theorem Builds.at (h : p.Builds Q) (token : Token) : p.BuildsAt token Q :=
  fun context cursor a after ordinary _ => h context cursor a after ordinary

theorem builds_pure {a : α} (h : Q a) : (pure a : Parser α).Builds Q := by
  rintro context cursor _ _ ordinary ⟨⟩
  exact ⟨h, ordinary⟩

theorem builds_fail {cause : ParseCause} : (fail cause token : Parser α).Builds Q :=
  fun _ _ _ _ _ h => nomatch h

theorem builds_exhausted : (exhausted : Parser α).Builds Q := fun _ _ _ _ _ h => nomatch h

theorem builds_ite {c : Prop} [Decidable c] (hp : p.Builds Q) (hq : q.Builds Q) :
    (if c then p else q).Builds Q := by
  split
  · exact hp
  · exact hq

/-- A sequence builds what its last step builds from results of the first. -/
theorem BuildsAt.bind (hp : p.BuildsAt token Q) (hf : ∀ a, Q a → (f a).Builds R) :
    (p >>= f).BuildsAt token R := by
  intro context cursor b after ordinary there read
  obtain ⟨a, middle, read_a, read_b⟩ := done_of_bind read
  obtain ⟨holds, ordinary'⟩ := hp context cursor a middle ordinary there read_a
  exact hf a holds context middle b after ordinary' read_b

/-- The same without a token. -/
theorem Builds.bind (hp : p.Builds Q) (hf : ∀ a, Q a → (f a).Builds R) : (p >>= f).Builds R :=
  fun context cursor b after ordinary => (hp.at _).bind hf context cursor b after ordinary rfl

/-! ## Single tokens -/

theorem buildsAt_peek_bind {f : Token → Parser β} (h : (f token).BuildsAt token R) :
    (peek >>= f).BuildsAt token R := by
  rintro context cursor b after ordinary rfl read
  exact h context cursor b after ordinary rfl read

/-- What looks at a token builds what it does for every ordinary one. -/
theorem builds_peek_bind {f : Token → Parser β} (h : ∀ t, t.IsOrdinary → (f t).BuildsAt t R) :
    (peek >>= f).Builds R :=
  fun context cursor b after ordinary =>
    h _ ordinary.token context cursor b after ordinary rfl

theorem buildsAt_next : next.BuildsAt token fun _ => True := by
  rintro context cursor _ _ ordinary - ⟨⟩
  exact ⟨trivial, ordinary.of_sublist (List.drop_sublist 1 _)⟩

/-- Behind a token the rest builds. -/
theorem buildsAt_next_bind {f : Token → Parser β} (h : (f token).Builds R) :
    (next >>= f).BuildsAt token R := by
  rintro context cursor b after ordinary rfl read
  exact h context _ b after (ordinary.of_sublist (List.drop_sublist 1 _)) read

/-- What reads a token builds what it does for every ordinary one. -/
theorem builds_next_bind {f : Token → Parser β} (h : ∀ t, t.IsOrdinary → (f t).Builds R) :
    (next >>= f).Builds R :=
  fun context cursor b after ordinary read =>
    buildsAt_next_bind (h _ ordinary.token) context cursor b after ordinary rfl read

theorem builds_sees_bind {kind : TokenKind} {f : Bool → Parser β}
    (h : ∀ t, t.IsOrdinary → (f (decide (t.kind = kind))).BuildsAt t R) :
    (sees kind >>= f).Builds R :=
  builds_peek_bind h

theorem builds_skipEnds : skipEnds.Builds fun _ => True := by
  rintro context cursor _ _ ordinary ⟨⟩
  exact ⟨trivial, ordinary.of_sublist (List.dropWhile_sublist _)⟩

/-- Nothing is a function. -/
theorem builds_isFunction (x : Expr) : (isFunction x).Builds (· = false) := by
  rintro context cursor _ _ ordinary ⟨⟩
  refine ⟨?_, ordinary⟩
  rw [ordinary.undefined, ordinary.unknown]
  rfl

/-- To expect a token builds nothing in particular. -/
theorem builds_expect (kind : TokenKind) (character : String) :
    (expect kind character).Builds fun _ => True :=
  builds_next_bind fun _ _ => builds_ite builds_fail (builds_ite (builds_pure trivial) builds_fail)

end Parser

namespace Grammar

open TexAlgebra.Parser TexAlgebra.Expr

/-- Whether the parsers for expressions and their parts build terms. -/
structure BuildsTerms (g : Grammar) : Prop where
  operand : g.operand.Builds IsTerm
  expression : g.expression.Builds IsTerm
  operators : ∀ {lhs : Expr}, lhs.IsTerm → ∀ least, (g.operators lhs least).Builds IsTerm
  subscripts : g.subscripts.Builds AreTerms
  items : ∀ commas, (g.items commas).Builds AreTerms
  groups : g.groups.Builds AreGroups

section

variable {g : Grammar} (hg : g.BuildsTerms) {token : Token} (ordinary : token.IsOrdinary)
include hg

/-! ## Names and groups -/

include ordinary in
theorem buildsAt_identifier (same : token.kind = .identifier) :
    (identifier g).BuildsAt token IsTerm :=
  buildsAt_next_bind <| hg.subscripts.bind fun _ all => builds_pure (.var (ordinary.name same) all)

theorem buildsTerms_subscriptsStep : (subscriptsStep g).Builds AreTerms := by
  refine builds_sees_bind fun _ _ => Builds.at (builds_ite (builds_pure areTerms_nil) ?_) _
  refine builds_next_bind fun _ _ => builds_peek_bind fun following ordinary => ?_
  split
  · refine buildsAt_next_bind <| (hg.items true).bind fun _ items =>
      hg.subscripts.bind fun _ later => builds_pure fun e he => ?_
    exact (List.mem_append.1 he).elim (items e) (later e)
  · next same =>
    exact buildsAt_next_bind <| hg.subscripts.bind fun _ later =>
      builds_pure (.cons (.var (ordinary.name same) areTerms_nil) later)
  · next same =>
    exact buildsAt_next_bind <| hg.subscripts.bind fun _ later =>
      builds_pure (.cons (.number (ordinary.number same)) later)
  · exact builds_fail.at _
  · exact builds_fail.at _

theorem buildsTerms_groupsStep : (groupsStep g).Builds AreGroups := by
  refine builds_sees_bind fun _ _ => Builds.at (builds_ite (builds_pure ?_) ?_) _
  · exact ⟨by simp, by simp⟩
  · refine builds_next_bind fun _ _ => (hg.items false).bind fun items all =>
      hg.groups.bind fun later groups => builds_pure ?_
    exact ⟨List.forall_mem_cons.2 ⟨rfl, groups.1⟩, List.forall_mem_cons.2 ⟨all, groups.2⟩⟩

/-! ## Control words -/

/-- A fraction is built from terms. -/
theorem buildsTerms_fraction : (fraction g token).Builds IsTerm := by
  refine hg.groups.bind fun groups all => ?_
  split
  · next a b =>
    obtain ⟨group_a, grouped⟩ := List.forall_mem_cons.1 all.1
    obtain ⟨group_b, -⟩ := List.forall_mem_cons.1 grouped
    obtain ⟨terms_a, terms⟩ := List.forall_mem_cons.1 all.2
    obtain ⟨terms_b, -⟩ := List.forall_mem_cons.1 terms
    split
    · next above below =>
      exact builds_pure (.binary (areTerms_members_of_unwrap? group_a terms_a above)
        (areTerms_members_of_unwrap? group_b terms_b below))
    · exact builds_fail
  · exact builds_fail

include ordinary in
/-- No control word begins a definition or a list. -/
theorem builds_afterControlWord (same : token.kind = .controlWord) (other : token.text ≠ "\\end") :
    (afterControlWord g token).Builds IsTerm := by
  have command : token.text ≠ "\\frac" → IsCommand token.text := by
    intro whole
    refine (ordinary.word same).resolve_left fun reserved => ?_
    simp [whole, other] at reserved
  have begins : ∀ name, isReserved name = true → name ≠ "\\frac" → token.text ≠ name := by
    rintro name reserved whole rfl
    rw [(command whole).1] at reserved
    cases reserved
  unfold afterControlWord
  split
  · next spelled => exact absurd spelled (begins _ rfl (by decide))
  · next spelled => exact absurd spelled (begins _ rfl (by decide))
  · exact buildsTerms_fraction hg
  · next spelled => exact absurd spelled (begins _ rfl (by decide))
  · next whole _ =>
    exact hg.groups.bind fun _ groups =>
      builds_pure (.command (command whole) groups.1 groups.2)

include ordinary in
/-- A control word that defines nothing is built from groups of terms. -/
theorem buildsAt_controlWord (same : token.kind = .controlWord) :
    (controlWord g).BuildsAt token IsTerm := by
  refine buildsAt_peek_bind ?_
  split
  · exact builds_fail.at _
  · next other => exact buildsAt_next_bind (builds_afterControlWord hg ordinary same other)

/-! ## Operands -/

theorem builds_parenthesized : (parenthesized g).Builds IsTerm :=
  builds_next_bind fun _ _ => hg.expression.bind fun _ term => (builds_expect _ _).bind fun _ _ =>
    builds_pure term

include ordinary in
/-- A name is never taken for that of a function. -/
theorem buildsAt_name (same : token.kind = .identifier) : (name g).BuildsAt token IsTerm := by
  refine (buildsAt_identifier hg ordinary same).bind fun x term => builds_sees_bind fun _ _ => ?_
  refine Builds.at (builds_ite (builds_pure term) ?_) _
  refine (builds_isFunction x).bind fun called unknown => ?_
  rw [unknown]
  exact builds_pure term

omit hg in
include ordinary in
theorem buildsAt_number (same : token.kind = .number) : number.BuildsAt token IsTerm :=
  buildsAt_next_bind (builds_pure (.number (ordinary.number same)))

theorem builds_signed : (signed g g.operand).Builds IsTerm := by
  refine builds_next_bind fun token _ => ?_
  split
  · split
    · next sign =>
      exact hg.operand.bind fun _ term => builds_ite (builds_pure (.unary sign term)) <|
        (hg.operators term _).bind fun _ term' => builds_pure (.unary sign term')
    · exact builds_fail
  · exact builds_fail

/-- An operand is a term. -/
theorem buildsTerms_operandStep : (operandStep g).Builds IsTerm := by
  refine builds_peek_bind fun token ordinary => ?_
  split
  · next same => exact buildsAt_controlWord hg ordinary same
  · exact (builds_signed hg).at _
  · next same => exact buildsAt_name hg ordinary same
  · next same => exact buildsAt_number ordinary same
  · exact (builds_parenthesized hg).at _
  · exact builds_fail.at _
  · exact builds_fail.at _
  · exact builds_fail.at _

/-! ## Expressions -/

omit hg in
theorem builds_operatorToken : operatorToken.Builds fun _ => True := by
  refine builds_peek_bind fun token _ => ?_
  split
  · exact buildsAt_next
  · exact (builds_pure trivial).at _

theorem builds_rightOperand (op : Operator) {rhs : Expr} (term : rhs.IsTerm) :
    (rightOperand g op rhs).Builds IsTerm :=
  builds_peek_bind fun _ _ => (builds_ite (hg.operators term _) (builds_pure term)).at _

/-- A chain of operators on terms is a term. -/
theorem buildsTerms_operatorsStep {lhs : Expr} (left : lhs.IsTerm) (least : Nat) :
    (operatorsStep g lhs least).Builds IsTerm := by
  refine builds_peek_bind fun _ _ => Builds.at ?_ _
  split
  · exact builds_pure left
  · refine builds_ite (builds_pure left) <| builds_operatorToken.bind fun _ _ =>
      (buildsTerms_operandStep hg).bind fun rhs right => ?_
    exact builds_ite (builds_pure (.binary_of_terms left right)) <|
      (builds_rightOperand hg _ right).bind fun _ right' =>
        hg.operators (.binary_of_terms left right') _

/-- An expression is a term. -/
theorem buildsTerms_expressionStep : (expressionStep g).Builds IsTerm :=
  (buildsTerms_operandStep hg).bind fun _ term =>
    builds_ite (builds_pure term) (buildsTerms_operatorsStep hg term _)

theorem buildsTerms_itemsStep (commas : Bool) : (itemsStep g commas).Builds AreTerms := by
  refine builds_skipEnds.bind fun _ _ => builds_peek_bind fun _ _ => Builds.at ?_ _
  exact builds_ite (builds_next_bind fun _ _ => builds_pure areTerms_nil) <|
    builds_ite builds_fail <| builds_ite (builds_next_bind fun _ _ => hg.items _) <|
      (buildsTerms_expressionStep hg).bind fun _ term => (hg.items _).bind fun _ all =>
        builds_pure (.cons term all)

/-- One more level builds terms. -/
theorem buildsTerms_step : (step g).BuildsTerms where
  operand := buildsTerms_operandStep hg
  expression := buildsTerms_expressionStep hg
  operators := buildsTerms_operatorsStep hg
  subscripts := buildsTerms_subscriptsStep hg
  items := buildsTerms_itemsStep hg
  groups := buildsTerms_groupsStep hg

end

theorem buildsTerms_none : none.BuildsTerms where
  operand := builds_exhausted
  expression := builds_exhausted
  operators _ _ := builds_exhausted
  subscripts := builds_exhausted
  items _ := builds_exhausted
  groups := builds_exhausted

/-- All levels build terms. -/
theorem buildsTerms_ofDepth (depth : Nat) : (ofDepth depth).BuildsTerms := by
  induction depth with
  | zero => exact buildsTerms_none
  | succ depth ih => exact buildsTerms_step ih

end Grammar

/-- Where nothing is defined, nothing but terms is read. -/
theorem Parser.buildsTerms_expression : expression.Builds Expr.IsTerm :=
  fun context cursor => (Grammar.buildsTerms_ofDepth _).expression context cursor

end TexAlgebra
