import TexAlgebra.Proofs.Grammar.Fixpoint
import TexAlgebra.Proofs.Grammar.Spelled
/-!
# Nothing is lost

Whatever is read as an expression is spelled by the tokens that were read for it. `Parser.Spells`
says this of a parser that succeeds; of its tokens, only those outside of the groups kept as text
count. Every way to build an expression has a lemma that puts the tokens of its parts together, and
`Parser.spells_expression` draws them up.
-/

namespace TexAlgebra

variable {α β : Type} {Q : α → List Token → Prop} {R : β → List Token → Prop} {place : Place}

namespace Parser

/-- Whether a result of the parser, read from a cursor at the given place, has the property `Q` with
the tokens that were read. -/
def Spells (place : Place) (p : Parser α) (Q : α → List Token → Prop) : Prop :=
  ∀ context cursor a after, p context cursor = .done a after →
    ∃ ts, spoken place cursor.rest = ts ++ spoken .plain after.rest ∧ Q a ts

/-- Whether this is so where `token` is next. -/
def SpellsAt (place : Place) (token : Token) (p : Parser α) (Q : α → List Token → Prop) : Prop :=
  ∀ context cursor a after, cursor.token context = token → p context cursor = .done a after →
    ∃ ts, spoken place cursor.rest = ts ++ spoken .plain after.rest ∧ Q a ts

/-- Whether this is so of what is read with `token`, when that was the token before. -/
def SpellsBehind (token : Token) (p : Parser α) (Q : α → List Token → Prop) : Prop :=
  p.Spells (.after token) fun a ts => Q a (token.spoken ++ ts)

/-! ## Combination -/

variable {p : Parser α} {f : α → Parser β} {token : Token}

theorem Spells.at (h : p.Spells place Q) (token : Token) : p.SpellsAt place token Q :=
  fun context cursor a after _ => h context cursor a after

theorem spells_pure {a : α} (h : Q a []) : (pure a : Parser α).Spells .plain Q := by
  rintro context cursor _ _ ⟨⟩
  exact ⟨[], rfl, h⟩

theorem spells_fail {cause : ParseCause} : (fail cause token : Parser α).Spells place Q :=
  fun _ _ _ _ h => nomatch h

theorem spells_exhausted : (exhausted : Parser α).Spells place Q := fun _ _ _ _ h => nomatch h

theorem spells_ite {p q : Parser α} {c : Prop} [Decidable c] (hp : p.Spells place Q)
    (hq : q.Spells place Q) : (if c then p else q).Spells place Q := by
  split
  · exact hp
  · exact hq

/-- A sequence spells what its steps spell, one after the other. -/
theorem SpellsAt.bind (hp : p.SpellsAt place token Q)
    (hf : ∀ a ts, Q a ts → (f a).Spells .plain fun b us => R b (ts ++ us)) :
    (p >>= f).SpellsAt place token R := by
  intro context cursor b after there h
  obtain ⟨a, middle, first, second⟩ := done_of_bind h
  obtain ⟨ts, here, spells⟩ := hp context cursor a middle there first
  obtain ⟨us, later, spells'⟩ := hf a ts spells context middle b after second
  exact ⟨ts ++ us, by rw [here, later, List.append_assoc], spells'⟩

theorem Spells.bind (hp : p.Spells place Q)
    (hf : ∀ a ts, Q a ts → (f a).Spells .plain fun b us => R b (ts ++ us)) :
    (p >>= f).Spells place R :=
  fun context cursor b after h => (hp.at _).bind hf context cursor b after rfl h

/-! ## Single tokens -/

/-- What looks at a token spells what it does for every token. -/
theorem spells_peek_bind {f : Token → Parser β} (h : ∀ t, (f t).SpellsAt place t R) :
    (peek >>= f).Spells place R :=
  fun context cursor b after done => h _ context cursor b after rfl done

theorem spellsAt_peek_bind {f : Token → Parser β} (h : (f token).SpellsAt place token R) :
    (peek >>= f).SpellsAt place token R := by
  rintro context cursor b after rfl done
  exact h context cursor b after rfl done

theorem spells_sees_bind {kind : TokenKind} {f : Bool → Parser β}
    (h : ∀ t, (f (decide (t.kind = kind))).SpellsAt place t R) : (sees kind >>= f).Spells place R :=
  spells_peek_bind h

theorem spellsAt_next_bind {f : Token → Parser β}
    (h : (f token).SpellsBehind token R) :
    (next >>= f).SpellsAt .plain token R := by
  rintro context ⟨rest, functions⟩ b after rfl done
  obtain ⟨us, later, spells⟩ := h context _ b after done
  cases rest with
  | nil => exact ⟨us, by simpa using later, spells⟩
  | cons t rest =>
    refine ⟨t.spoken ++ us, ?_, spells⟩
    rw [spoken_cons, List.append_assoc, ← later]
    rfl

/-- What reads a token spells what it does behind it. -/
theorem spells_next_bind {f : Token → Parser β}
    (h : ∀ t, (f t).SpellsBehind t R) : (next >>= f).Spells .plain R :=
  fun context cursor b after done => spellsAt_next_bind (h _) context cursor b after rfl done

/-- Behind a silent token nothing is read yet. -/
theorem Spells.behind (silent : token.IsSilent) (h : p.Spells .plain Q) :
    p.SpellsBehind token Q := by
  rw [SpellsBehind, silent.after, silent.spoken]
  exact h

/-- Behind a number, a name or an operator that token was read. -/
theorem Spells.behind_of_isSpoken (said : token.isSpoken = true)
    (h : p.Spells .plain fun a us => Q a (token :: us)) : p.SpellsBehind token Q := by
  rw [SpellsBehind, Place.after_of_isSpoken said, Token.spoken_of_isSpoken said]
  exact h

/-- What opens texts spells what those behind it do. -/
theorem Spells.behind_of_opensTexts (opens : token.opensTexts = true) (h : p.Spells .behind Q) :
    p.SpellsBehind token Q := by
  rw [SpellsBehind, Place.after_of_opensTexts opens, Token.spoken_of_opensTexts opens]
  exact h

theorem spells_expect {kind : TokenKind} (silent : kind.isSilent = true) (character : String) :
    (expect kind character).Spells .plain fun _ ts => ts = [] := by
  refine spells_next_bind fun t => ?_
  split
  · exact spells_fail
  split
  · next same =>
    exact Spells.behind (Q := fun _ us => us = []) (Token.isSilent_of_kind same silent)
      (spells_pure rfl)
  · exact spells_fail

theorem spells_skipEnds : skipEnds.Spells .plain fun _ ts => ts = [] := by
  rintro context cursor _ _ ⟨⟩
  exact ⟨[], (spoken_dropWhile _).symm, rfl⟩

theorem spells_define (name : Expr) : (define name).Spells .plain fun _ ts => ts = [] := by
  rintro context cursor _ _ ⟨⟩
  exact ⟨[], rfl, rfl⟩

theorem spells_isFunction (x : Expr) : (isFunction x).Spells .plain fun _ ts => ts = [] := by
  rintro context cursor _ _ ⟨⟩
  exact ⟨[], rfl, rfl⟩

/-- Reading a token that spells a node. -/
theorem spellsAt_next {Q : Token → List Token → Prop} (said : token.isSpoken = true)
    (h : Q token [token]) : next.SpellsAt .plain token Q := by
  rintro context ⟨rest, functions⟩ _ _ rfl ⟨⟩
  cases rest with
  | nil => cases said
  | cons t rest =>
    refine ⟨[t], ?_, h⟩
    have said : t.isSpoken = true := said
    rw [spoken_cons, Token.spoken_of_isSpoken said, Place.after_of_isSpoken said]
    rfl

theorem spells_sees (kind : TokenKind) : (sees kind).Spells .plain fun _ ts => ts = [] := by
  rintro context cursor _ _ ⟨⟩
  exact ⟨[], rfl, rfl⟩

/-- What spells nothing can be left out. -/
theorem Spells.then {f : α → Parser β} (hp : p.Spells place fun _ ts => ts = [])
    (hf : ∀ a, (f a).Spells .plain R) : (p >>= f).Spells place R := by
  refine hp.bind fun a ts nothing => ?_
  rw [nothing]
  exact hf a

end Parser

namespace Grammar

open TexAlgebra.Parser TexAlgebra.Expr

/-! ## Groups kept as text -/

/-- Where a text goes on behind groups that are kept as text, none of their tokens was spoken. -/
theorem spoken_readTexts (ending : Position) (rest : List Token) :
    ∀ names, (readTexts ending rest).1 = .ok names →
      spoken .behind rest = spoken .plain (readTexts ending rest).2 := by
  fun_induction readTexts ending rest with
  | case1 => exact fun _ _ => by rw [spoken_nil, spoken_nil]
  | case2 =>
    intro _ failed
    cases failed
  | case3 token rest braced inside after left later further again ih =>
    rw [again] at ih
    cases later with
    | error fault =>
      intro _ failed
      cases failed
    | ok later =>
      intro _ _
      rw [spoken, outsideTexts, if_pos braced, ← spoken, spoken_inside]
      exact ih later rfl
  | case4 token rest other => exact fun _ _ => spoken_behind_cons other rest

/-- Groups kept as text spell nothing. -/
theorem spells_texts : texts.Spells .behind fun _ ts => ts = [] := by
  intro context cursor names after done
  have kept := spoken_readTexts context.ending cursor.rest names
  unfold texts at done
  revert kept done
  rcases readTexts context.ending cursor.rest with ⟨fault | read, rest⟩
  · nofun
  · intro done kept
    cases done
    exact ⟨[], kept rfl, rfl⟩

/-! ## Parts of the grammar -/

/-- Whether the tokens spell the expression. -/
abbrev Spells (e : Expr) (ts : List Token) : Prop := Spelled e.walk ts

/-- Whether the tokens spell the expressions, one after the other. -/
abbrev SpellsAll (es : List Expr) (ts : List Token) : Prop := Spelled (walkAll es) ts

theorem spellsAll_nil : SpellsAll [] [] := .nil

/-- Whether every parser of the grammar reads expressions that are spelled by their tokens. -/
structure IsLossless (g : Grammar) : Prop where
  operand : g.operand.Spells .plain Spells
  expression : g.expression.Spells .plain Spells
  operators : ∀ {lhs : Expr} {us : List Token}, Spells lhs us → ∀ least,
    (g.operators lhs least).Spells .plain fun e ts => Spells e (us ++ ts)
  subscripts : g.subscripts.Spells .plain SpellsAll
  arguments : g.arguments.Spells .plain SpellsAll
  items : ∀ commas, (g.items commas).Spells .plain SpellsAll
  groups : g.groups.Spells .plain SpellsAll
  parameters : g.parameters.Spells .plain SpellsAll
  statements : ∀ opening name, (g.statements opening name).Spells .plain SpellsAll

section

variable {g : Grammar} (hg : g.IsLossless)
include hg

/-! ## Names -/

theorem spellsAt_identifier {token : Token} (same : token.kind = .identifier) :
    (identifier g).SpellsAt .plain token Spells := by
  refine spellsAt_next_bind (Spells.behind_of_isSpoken (Token.isSpoken_of_kind same rfl) ?_)
  refine hg.subscripts.bind fun _ ts all => spells_pure ?_
  rw [List.append_nil]
  exact .token ⟨rfl, same, rfl⟩ all

theorem spells_subscriptsStep : (subscriptsStep g).Spells .plain SpellsAll := by
  refine spells_sees_bind fun token => ?_
  split
  · exact (spells_pure spellsAll_nil).at _
  next seen =>
  have silent : token.IsSilent := Token.isSilent_of_kind (by simpa using seen) rfl
  refine spellsAt_next_bind (Spells.behind silent ?_)
  refine spells_peek_bind fun following => ?_
  split
  · next same =>
    refine spellsAt_next_bind (Spells.behind (Token.isSilent_of_kind same rfl) ?_)
    refine (hg.items true).bind fun items ts first => hg.subscripts.bind fun later us rest => ?_
    refine spells_pure ?_
    rw [SpellsAll, walkAll_append, List.append_nil]
    exact first.append rest
  · next same =>
    refine spellsAt_next_bind
      (Spells.behind_of_isSpoken (Token.isSpoken_of_kind same rfl) ?_)
    refine hg.subscripts.bind fun later us rest => spells_pure ?_
    rw [List.append_nil]
    exact .token ⟨rfl, same, rfl⟩ rest
  · next same =>
    refine spellsAt_next_bind
      (Spells.behind_of_isSpoken (Token.isSpoken_of_kind same rfl) ?_)
    refine hg.subscripts.bind fun later us rest => spells_pure ?_
    rw [List.append_nil]
    exact .token ⟨rfl, same, rfl⟩ rest
  · exact spells_fail.at _
  · exact spells_fail.at _

/-! ## Groups -/

theorem spells_braced (commas : Bool) : (braced g commas).Spells .plain Spells := by
  refine (spells_expect rfl _).then fun token => (hg.items commas).bind fun items ts all => ?_
  refine spells_pure ?_
  rw [List.append_nil]
  exact all

theorem spells_groupsStep : (groupsStep g).Spells .plain SpellsAll := by
  refine spells_sees_bind fun token => ?_
  split
  · exact (spells_pure spellsAll_nil).at _
  next seen =>
  have silent : token.IsSilent := Token.isSilent_of_kind (by simpa using seen) rfl
  refine spellsAt_next_bind (Spells.behind silent ?_)
  refine (hg.items false).bind fun items ts first => hg.groups.bind fun later us rest => ?_
  refine spells_pure ?_
  rw [List.append_nil]
  exact first.append rest

/-! ## Control words -/

omit hg in
/-- Two groups are spelled by what spells the first and what spells the second. -/
theorem exists_of_pair {a b : Expr} {ts : List Token} (h : SpellsAll [a, b] ts) :
    ∃ us vs, ts = us ++ vs ∧ Spells a us ∧ Spells b vs := by
  obtain ⟨us, vs, rfl, first, second⟩ := Spelled.exists_of_append h
  rw [walkAll_singleton] at second
  exact ⟨us, vs, rfl, first, second⟩

theorem spells_fraction {token : Token} (word : token.kind = .controlWord) :
    (fraction g token).Spells .plain Spells := by
  refine hg.groups.bind fun groups ts all => ?_
  split
  · next a b =>
    obtain ⟨us, vs, rfl, first, second⟩ := exists_of_pair all
    split
    · next numerator denominator above below =>
      refine spells_pure ?_
      rw [List.append_nil, Spells, walk, walk_unwrap above, walk_unwrap below]
      exact first.append (.implied (.fraction word) second)
    · exact spells_fail
  · exact spells_fail

theorem spells_binding {token : Token} : (binding g token).Spells .plain Spells := by
  refine hg.groups.bind fun groups ts all => ?_
  split
  · next a b =>
    obtain ⟨us, vs, rfl, first, second⟩ := exists_of_pair all
    split
    · exact spells_fail
    · exact spells_fail
    · next target value bound given =>
      have noted : (noteFunction target value).Spells .plain fun _ ts => ts = [] :=
        spells_ite (spells_define _) (spells_pure rfl)
      refine spells_ite spells_fail (noted.then fun _ => spells_pure ?_)
      rw [List.append_nil, Spells, walk, walk_unwrap (Option.filter_eq_some_iff.1 bound).1,
        walk_unwrap given]
      exact first.append second
  · exact spells_fail

/-- The name and the parameters of a prototype are spelled by its tokens. -/
theorem spells_prototype : (prototype g).Spells .plain fun r ts =>
    Spelled (r.1.walk ++ walkAll r.2.1) ts := by
  refine spells_peek_bind fun token => ?_
  split
  · exact spells_fail.at _
  split
  · exact spells_fail.at _
  · next same =>
    refine (spellsAt_identifier hg (not_not.1 same)).bind fun name ts named => ?_
    refine (spells_expect rfl _).then fun _ => hg.parameters.bind fun parameters us all => ?_
    refine spells_pure ?_
    rw [List.append_nil]
    exact named.append all

theorem spells_parametersStep : (parametersStep g).Spells .plain SpellsAll := by
  refine spells_sees_bind fun token => ?_
  split
  · exact ((spells_expect rfl _).then fun _ => spells_pure spellsAll_nil).at _
  next seen =>
  refine (spellsAt_identifier hg (by simpa using seen)).bind fun parameter ts named => ?_
  refine spells_next_bind fun separator => ?_
  split
  · next same =>
    refine (spells_pure ?_).behind (Token.isSilent_of_kind same rfl)
    rw [List.append_nil, SpellsAll, walkAll_singleton]
    exact named
  · next same =>
    refine Spells.behind (Token.isSilent_of_kind same rfl) ?_
    refine hg.parameters.bind fun later us rest => spells_pure ?_
    rw [List.append_nil]
    exact named.append rest
  · exact spells_fail

theorem spells_function {token : Token} : (function g token).Spells .plain Spells := by
  refine (spells_expect rfl _).then fun _ => (spells_prototype hg).bind fun r ts named => ?_
  obtain ⟨name, parameters, head⟩ := r
  refine (spells_expect rfl _).then fun _ => (spells_define _).then fun _ => ?_
  refine (spells_braced hg false).bind fun group us inside => ?_
  split
  · next body single =>
    refine spells_ite spells_fail (spells_pure ?_)
    rw [List.append_nil, Spells, walk, walk_unwrap single]
    exact named.append inside
  · exact spells_fail

/-- A list starts behind its control word, whose groups are kept as text. -/
theorem spells_block {token : Token} : (block g token).Spells .behind Spells := by
  refine spells_texts.then fun names => ?_
  split
  · exact spells_fail
  · refine (hg.statements token _).bind fun statements ts all => spells_pure ?_
    rw [List.append_nil]
    exact all

/-- A control word spells what is in its groups. -/
theorem spellsBehind_afterControlWord {token : Token} (word : token.kind = .controlWord)
    (other : token.text ≠ "\\end") : (afterControlWord g token).SpellsBehind token Spells := by
  unfold afterControlWord
  split
  · next begins =>
    refine (spells_block hg).behind_of_opensTexts ?_
    simp [Token.opensTexts, word, begins]
  · next defines =>
    exact (spells_function hg).behind (Token.isSilent_of_controlWord word (by simp [defines]) other)
  · next divides =>
    exact (spells_fraction hg word).behind
      (Token.isSilent_of_controlWord word (by simp [divides]) other)
  · next binds =>
    exact (spells_binding hg).behind (Token.isSilent_of_controlWord word (by simp [binds]) other)
  · next begins _ _ _ =>
    refine Spells.behind (Token.isSilent_of_controlWord word begins other) ?_
    refine hg.groups.bind fun groups ts all => spells_pure ?_
    rw [List.append_nil]
    exact all

theorem spellsAt_controlWord {token : Token} (word : token.kind = .controlWord) :
    (controlWord g).SpellsAt .plain token Spells := by
  refine spellsAt_peek_bind ?_
  split
  · exact spells_fail.at _
  · next other => exact spellsAt_next_bind (spellsBehind_afterControlWord hg word other)

/-! ## Operands -/

theorem spellsAt_parenthesized {token : Token} (same : token.kind = .parenOpen) :
    (parenthesized g).SpellsAt .plain token Spells := by
  refine spellsAt_next_bind (Spells.behind (Token.isSilent_of_kind same rfl) ?_)
  refine hg.expression.bind fun e ts inside => (spells_expect rfl _).then fun _ => spells_pure ?_
  rw [List.append_nil]
  exact inside

theorem spells_callArguments : (callArguments g).Spells .plain SpellsAll := by
  refine (spells_expect rfl _).then fun _ => spells_sees_bind fun token => ?_
  split
  · next seen =>
    have silent : token.IsSilent := Token.isSilent_of_kind (by simpa using seen) rfl
    exact spellsAt_next_bind (Spells.behind silent (spells_pure spellsAll_nil))
  · exact hg.arguments.at _

theorem spellsAt_name {token : Token} (same : token.kind = .identifier) :
    (name g).SpellsAt .plain token Spells := by
  refine (spellsAt_identifier hg same).bind fun x ts named => (spells_sees _).then fun _ => ?_
  have alone : (pure x : Parser Expr).Spells .plain fun e us => Spells e (ts ++ us) := by
    refine spells_pure ?_
    rw [List.append_nil]
    exact named
  refine spells_ite alone ((spells_isFunction x).then fun _ => spells_ite alone ?_)
  refine (spells_callArguments hg).bind fun arguments us all => spells_pure ?_
  rw [List.append_nil]
  exact named.append all

omit hg in
theorem spellsAt_number {token : Token} (same : token.kind = .number) :
    number.SpellsAt .plain token Spells := by
  refine spellsAt_next_bind (Spells.behind_of_isSpoken (Token.isSpoken_of_kind same rfl) ?_)
  exact spells_pure (.token ⟨rfl, same, rfl⟩ .nil)

theorem spells_signed : (signed g g.operand).Spells .plain Spells := by
  refine spells_next_bind fun token => ?_
  split
  · next op same =>
    split
    · refine Spells.behind_of_isSpoken (Token.isSpoken_of_kind same rfl) ?_
      refine hg.operand.bind fun e ts operand => spells_ite (spells_pure ?_) ?_
      · rw [List.append_nil]
        exact .token ⟨rfl, same⟩ operand
      · refine (hg.operators operand _).bind fun e' us whole => spells_pure ?_
        rw [List.append_nil]
        exact .token ⟨rfl, same⟩ whole
    · exact spells_fail
  · exact spells_fail

/-- An operand spells what is read for it. -/
theorem spells_operandStep : (operandStep g).Spells .plain Spells := by
  refine spells_peek_bind fun token => ?_
  split
  · next same => exact spellsAt_controlWord hg same
  · exact (spells_signed hg).at _
  · next same => exact spellsAt_name hg same
  · next same => exact spellsAt_number same
  · next same => exact spellsAt_parenthesized hg same
  · exact spells_fail.at _
  · exact spells_fail.at _
  · exact spells_fail.at _

/-! ## Expressions -/

omit hg in
/-- An operation gets the token of its operator, which is read if it stands in the text. -/
theorem spellsAt_operatorToken {token : Token} {op : Operator}
    (seen : operatorAt? token = some op) :
    operatorToken.SpellsAt .plain token fun t ts => ∀ lhs rhs us vs, Spells lhs us → Spells rhs vs →
      Spells (.binary op lhs rhs (some t)) (us ++ (ts ++ vs)) := by
  refine spellsAt_peek_bind ?_
  split
  · next op' same =>
    obtain rfl : op' = op := by simpa [operatorAt?, same] using seen
    refine spellsAt_next (Token.isSpoken_of_kind same rfl) fun lhs rhs us vs first second => ?_
    exact first.append (.token ⟨rfl, same⟩ second)
  · next other =>
    obtain rfl : op = .juxtaposed := by
      unfold operatorAt? at seen
      split at seen <;> simp_all
    refine (spells_pure fun lhs rhs us vs first second => ?_).at _
    exact first.append (.implied (.product lhs rhs token) second)

theorem spells_rightOperand (op : Operator) {rhs : Expr} {us : List Token} (h : Spells rhs us) :
    (rightOperand g op rhs).Spells .plain fun e ts => Spells e (us ++ ts) := by
  refine spells_peek_bind fun _ => (spells_ite (hg.operators h _) (spells_pure ?_)).at _
  rw [List.append_nil]
  exact h

/-- A chain of operators spells on behind its left side. -/
theorem spells_operatorsStep {lhs : Expr} {us : List Token} (h : Spells lhs us) (least : Nat) :
    (operatorsStep g lhs least).Spells .plain fun e ts => Spells e (us ++ ts) := by
  have alone : (pure lhs : Parser Expr).Spells .plain fun e ts => Spells e (us ++ ts) := by
    refine spells_pure ?_
    rw [List.append_nil]
    exact h
  refine spells_peek_bind fun token => ?_
  split
  · exact alone.at _
  next op seen =>
  split
  · exact alone.at _
  refine (spellsAt_operatorToken seen).bind fun t ts sign => ?_
  refine (spells_operandStep hg).bind fun rhs vs first => spells_ite (spells_pure ?_) ?_
  · rw [List.append_nil]
    exact sign lhs rhs us vs h first
  · refine (spells_rightOperand hg op first).bind fun rhs' ws second => ?_
    have whole := sign lhs rhs' us (vs ++ ws) h second
    have rest := hg.operators whole least
    simpa only [List.append_assoc] using rest

/-- An expression spells what is read for it. -/
theorem spells_expressionStep : (expressionStep g).Spells .plain Spells := by
  refine (spells_operandStep hg).bind fun e ts first => spells_ite (spells_pure ?_) ?_
  · rw [List.append_nil]
    exact first
  · exact spells_operatorsStep hg first 0

/-! ## Lists of expressions -/

theorem spells_argumentsStep : (argumentsStep g).Spells .plain SpellsAll := by
  refine (spells_expressionStep hg).bind fun e ts first => spells_next_bind fun separator => ?_
  split
  · next same =>
    refine (spells_pure ?_).behind (Token.isSilent_of_kind same rfl)
    rw [List.append_nil, SpellsAll, walkAll_singleton]
    exact first
  · next same =>
    refine Spells.behind (Token.isSilent_of_kind same rfl) ?_
    refine hg.arguments.bind fun later us rest => spells_pure ?_
    rw [List.append_nil]
    exact first.append rest
  · exact spells_fail
  · exact spells_fail

theorem spells_itemsStep (commas : Bool) : (itemsStep g commas).Spells .plain SpellsAll := by
  refine spells_skipEnds.then fun _ => spells_peek_bind fun following => ?_
  split
  · next same =>
    refine spellsAt_next_bind (Spells.behind (Token.isSilent_of_kind same rfl) ?_)
    exact spells_pure spellsAll_nil
  split
  · exact spells_fail.at _
  split
  · next comma =>
    have same : following.kind = .comma := by simpa using ((Bool.and_eq_true _ _).mp comma).2
    exact spellsAt_next_bind (Spells.behind (Token.isSilent_of_kind same rfl) (hg.items commas))
  · refine Spells.at ?_ _
    refine (spells_expressionStep hg).bind fun e ts first =>
      (hg.items commas).bind fun es us rest => spells_pure ?_
    rw [List.append_nil]
    exact first.append rest

omit hg in
theorem spellsAt_closing {token : Token} (ends : token.opensTexts = true) (name : String) :
    (closing name).SpellsAt .plain token SpellsAll := by
  refine spellsAt_next_bind (Spells.behind_of_opensTexts ends ?_)
  exact spells_texts.then fun _ => spells_ite (spells_pure spellsAll_nil) spells_fail

theorem spells_statementsStep (opening : Token) (name : String) :
    (statementsStep g opening name).Spells .plain SpellsAll := by
  refine spells_skipEnds.then fun _ => spells_peek_bind fun following => ?_
  split
  · next ends =>
    refine spellsAt_closing ?_ name
    simp only [Bool.and_eq_true, decide_eq_true_eq] at ends
    simp [Token.opensTexts, ends]
  split
  · exact spells_fail.at _
  · refine Spells.at ?_ _
    refine (spells_expressionStep hg).bind fun e ts first =>
      (hg.statements opening name).bind fun es us rest => spells_pure ?_
    rw [List.append_nil]
    exact first.append rest

/-- One more level loses nothing. -/
theorem isLossless_step : (step g).IsLossless where
  operand := spells_operandStep hg
  expression := spells_expressionStep hg
  operators := spells_operatorsStep hg
  subscripts := spells_subscriptsStep hg
  arguments := spells_argumentsStep hg
  items := spells_itemsStep hg
  groups := spells_groupsStep hg
  parameters := spells_parametersStep hg
  statements := spells_statementsStep hg

end

theorem isLossless_none : none.IsLossless where
  operand := spells_exhausted
  expression := spells_exhausted
  operators _ _ := spells_exhausted
  subscripts := spells_exhausted
  arguments := spells_exhausted
  items _ := spells_exhausted
  groups := spells_exhausted
  parameters := spells_exhausted
  statements _ _ := spells_exhausted

/-- All levels lose nothing. -/
theorem isLossless_ofDepth (depth : Nat) : (ofDepth depth).IsLossless := by
  induction depth with
  | zero => exact isLossless_none
  | succ depth ih => exact isLossless_step ih

end Grammar

/-- An expression that is read is spelled by the tokens that were read for it. -/
theorem Parser.spells_expression : expression.Spells .plain Grammar.Spells :=
  fun context cursor => (Grammar.isLossless_ofDepth _).expression context cursor

end TexAlgebra
