import TexAlgebra.Parser.Depth
/-!
# The grammar as a fixed point

The grammars of two depths read alike wherever both depths exceed the number of tokens that are left
(`Grammar.alike_ofDepth`). So there is one grammar behind all of them, `Grammar.full`, which takes
for each text the depth that the text needs:

* `Grammar.full_eq_step`: the full grammar is built from itself, and no depth is left in it;
* `Parser.expression_eq_full`: it is the grammar with which expressions are read.

Everything that is proved about reading can start from these two facts.
-/

namespace TexAlgebra

namespace Parser

variable {α β : Type} {n : Nat}

/-! ## Laws of combination -/

instance : LawfulMonad Parser := by
  refine LawfulMonad.mk' Parser ?_ ?_ ?_
  · intro α p
    funext context cursor
    show andThen p (fun a => done (id a)) context cursor = p context cursor
    unfold andThen
    cases p context cursor <;> rfl
  · intro α β a f
    rfl
  · intro α β γ p f g
    funext context cursor
    show andThen (andThen p f) g context cursor =
      andThen p (fun a => andThen (f a) g) context cursor
    unfold andThen
    cases p context cursor <;> rfl

/-- Behind a result the sequence goes on. -/
theorem bind_of_done {p : Parser α} {context : Context} {cursor after : Cursor} {a : α}
    (h : p context cursor = .done a after) (f : α → Parser β) :
    (p >>= f) context cursor = f a context after := by
  rw [bind_eq, andThen, h]

/-- A sequence depends on how its first step ends. -/
theorem bind_congr_left {p q : Parser α} {context : Context} {cursor : Cursor}
    (h : p context cursor = q context cursor) (f : α → Parser β) :
    (p >>= f) context cursor = (q >>= f) context cursor := by
  rw [bind_eq, bind_eq, andThen, andThen, h]

/-- Two continuations of a parser come to the same if they do so after all its results. -/
theorem bind_congr_of_done {p : Parser α} {f g : α → Parser β} {context : Context}
    {cursor : Cursor}
    (h : ∀ a after, p context cursor = .done a after → f a context after = g a context after) :
    (p >>= f) context cursor = (p >>= g) context cursor := by
  rw [bind_eq, bind_eq, andThen, andThen]
  cases reading : p context cursor with
  | done a after => exact h a after reading
  | failed fault after => rfl
  | exhausted => rfl

/-- What a combination returns comes from a result of its first part. -/
theorem done_of_bind {p : Parser α} {f : α → Parser β} {context : Context}
    {cursor last : Cursor} {b : β} (h : (p >>= f) context cursor = .done b last) :
    ∃ a after, p context cursor = .done a after ∧ f a context after = .done b last := by
  rw [bind_eq, andThen] at h
  cases reading : p context cursor with
  | done a after =>
    rw [reading] at h
    exact ⟨a, after, rfl, h⟩
  | failed fault after => rw [reading] at h; cases h
  | exhausted => rw [reading] at h; cases h

theorem pure_apply (a : α) (context : Context) (cursor : Cursor) :
    (pure a : Parser α) context cursor = .done a cursor := rfl

theorem peek_bind (f : Token → Parser β) (context : Context) (cursor : Cursor) :
    (peek >>= f) context cursor = f (cursor.token context) context cursor := rfl

/-- A sequence that reads a token goes on behind it. -/
theorem next_bind (f : Token → Parser β) (context : Context) (cursor : Cursor) :
    (next >>= f) context cursor =
      f (cursor.token context) context { cursor with rest := cursor.rest.drop 1 } := rfl

/-- A sequence that tests for a kind goes on with what it sees. -/
theorem sees_bind (kind : TokenKind) (f : Bool → Parser β) (context : Context) (cursor : Cursor) :
    (sees kind >>= f) context cursor =
      f (decide ((cursor.token context).kind = kind)) context cursor := rfl

/-- A token that was expected is the one at the cursor, and has the kind that was asked for. -/
theorem expect_done {kind : TokenKind} {character : String} {t : Token} {context : Context}
    {cursor after : Cursor} (h : expect kind character context cursor = .done t after) :
    (cursor.token context).kind ≠ .endOfText ∧ t = cursor.token context ∧ t.kind = kind ∧
      after = { cursor with rest := cursor.rest.drop 1 } := by
  rw [expect, next_bind] at h
  split at h
  · cases h
  next inner =>
  split at h
  · next same =>
    cases h
    exact ⟨inner, rfl, same, rfl⟩
  · cases h

/-! ## Parsers that read alike -/

/-- The parsers read alike wherever fewer than `n` tokens are left. -/
def Alike (n : Nat) (p q : Parser α) : Prop :=
  ∀ context cursor, cursor.rest.length < n → p context cursor = q context cursor

/-- The parsers read alike wherever some tokens but at most `n` are left. -/
def AlikeAtToken (n : Nat) (p q : Parser α) : Prop :=
  ∀ context cursor, cursor.rest ≠ [] → cursor.rest.length ≤ n → p context cursor = q context cursor

/-! ## Combination -/

theorem alike_refl (p : Parser α) : Alike n p p := by
  intro context cursor _
  rfl

theorem alike_ite {p p' q q' : Parser α} {c : Prop} [Decidable c] (hp : Alike n p p')
    (hq : Alike n q q') : Alike n (if c then p else q) (if c then p' else q') := by
  split
  · exact hp
  · exact hq

/-- Sequences read alike if their steps do. -/
theorem alike_bind {p p' : Parser α} {f f' : α → Parser β} (hp : Alike n p p') (kept : p.Keeps)
    (hf : ∀ a, Alike n (f a) (f' a)) : Alike n (p >>= f) (p' >>= f') := by
  intro context cursor few
  rw [bind_eq, bind_eq, andThen, andThen, ← hp context cursor few]
  cases reading : p context cursor with
  | done a middle =>
    -- what `p` leaves is no longer than what it was given
    exact hf a context middle (Nat.lt_of_le_of_lt (kept.suffix reading).length_le few)
  | failed fault middle => rfl
  | exhausted => rfl

/-- Behind a common first part it suffices that the rest is alike. -/
theorem alike_same_bind {p : Parser α} {f f' : α → Parser β} (kept : p.Keeps)
    (hf : ∀ a, Alike n (f a) (f' a)) : Alike n (p >>= f) (p >>= f') :=
  alike_bind (alike_refl p) kept hf

/-- Once a token is taken, the rest has to be alike for one token less. -/
theorem alike_succ_bind {p p' : Parser α} {f f' : α → Parser β} (hp : Alike (n + 1) p p')
    (taken : p.Consumes) (hf : ∀ a, Alike n (f a) (f' a)) :
    Alike (n + 1) (p >>= f) (p' >>= f') := by
  intro context cursor few
  rw [bind_eq, bind_eq, andThen, andThen, ← hp context cursor few]
  cases reading : p context cursor with
  | done a middle =>
    have fewer := taken context cursor a middle reading
    exact hf a context middle (by omega)
  | failed fault middle => rfl
  | exhausted => rfl

theorem alikeAtToken_refl (p : Parser α) : AlikeAtToken n p p := by
  intro context cursor _ _
  rfl

theorem alikeAtToken_ite {p p' q q' : Parser α} {c : Prop} [Decidable c]
    (hp : AlikeAtToken n p p') (hq : AlikeAtToken n q q') :
    AlikeAtToken n (if c then p else q) (if c then p' else q') := by
  split
  · exact hp
  · exact hq

/-- Behind a token there is less left, so less has to be read alike. -/
theorem alikeAtToken_next_bind {f f' : Token → Parser β} (hf : ∀ t, Alike n (f t) (f' t)) :
    AlikeAtToken n (next >>= f) (next >>= f') := by
  intro context cursor present few
  have positive := List.length_pos_iff.2 present
  refine hf _ context _ ?_
  simp only [List.length_drop]
  omega

/-- Sequences read alike at a token if their first steps do and take one. -/
theorem alikeAtToken_bind {p p' : Parser α} {f f' : α → Parser β} (hp : AlikeAtToken n p p')
    (taken : p.Takes) (hf : ∀ a, Alike n (f a) (f' a)) :
    AlikeAtToken n (p >>= f) (p' >>= f') := by
  intro context cursor present few
  rw [bind_eq, bind_eq, andThen, andThen, ← hp context cursor present few]
  cases reading : p context cursor with
  | done a middle =>
    have fewer := taken context cursor a middle present reading
    exact hf a context middle (by omega)
  | failed fault middle => rfl
  | exhausted => rfl

/-- What looks at a token reads alike if it does for every token. -/
theorem alikeAtToken_peek_bind {f f' : Token → Parser β}
    (hf : ∀ t, AlikeAtToken n (f t) (f' t)) : AlikeAtToken n (peek >>= f) (peek >>= f') := by
  intro context cursor present few
  exact hf _ context cursor present few

/-- What tests for a kind reads alike if it does either way. -/
theorem alikeAtToken_sees_bind {kind : TokenKind} {f f' : Bool → Parser β}
    (hf : ∀ b, AlikeAtToken n (f b) (f' b)) :
    AlikeAtToken n (sees kind >>= f) (sees kind >>= f') := by
  intro context cursor present few
  exact hf _ context cursor present few

/-- Parsers that are alike at a token and at the end of a text are alike everywhere. -/
theorem alike_succ {p q : Parser α} (h : AlikeAtToken n p q)
    (atEnd : ∀ context functions, p context ⟨[], functions⟩ = q context ⟨[], functions⟩) :
    Alike (n + 1) p q := by
  intro context cursor few
  obtain ⟨rest, functions⟩ := cursor
  by_cases present : rest = []
  · subst present
    exact atEnd context functions
  · exact h context _ present (by simp only at few ⊢; omega)

end Parser

namespace Grammar

open TexAlgebra.Parser

/-- The parsers of two grammars read alike wherever fewer than `n` tokens are left. -/
structure Alike (n : Nat) (g h : Grammar) : Prop where
  operand : Parser.Alike n g.operand h.operand
  expression : Parser.Alike n g.expression h.expression
  operators : ∀ lhs least, Parser.Alike n (g.operators lhs least) (h.operators lhs least)
  subscripts : Parser.Alike n g.subscripts h.subscripts
  arguments : Parser.Alike n g.arguments h.arguments
  items : ∀ commas, Parser.Alike n (g.items commas) (h.items commas)
  groups : Parser.Alike n g.groups h.groups
  parameters : Parser.Alike n g.parameters h.parameters
  statements : ∀ opening name,
    Parser.Alike n (g.statements opening name) (h.statements opening name)

/-- Grammars read alike both ways. -/
theorem Alike.symm {n : Nat} {g h : Grammar} (alike : Alike n g h) : Alike n h g where
  operand context cursor few := (alike.operand context cursor few).symm
  expression context cursor few := (alike.expression context cursor few).symm
  operators lhs least context cursor few := (alike.operators lhs least context cursor few).symm
  subscripts context cursor few := (alike.subscripts context cursor few).symm
  arguments context cursor few := (alike.arguments context cursor few).symm
  items commas context cursor few := (alike.items commas context cursor few).symm
  groups context cursor few := (alike.groups context cursor few).symm
  parameters context cursor few := (alike.parameters context cursor few).symm
  statements opening name context cursor few :=
    (alike.statements opening name context cursor few).symm

section

variable {n : Nat} {g h : Grammar} (hg : g.Alike n h) (hk : g.Keeps)
include hg hk

/-! ## After the first token -/

theorem alike_identifier : Parser.Alike n (identifier g) (identifier h) :=
  alike_same_bind keeps_next fun _ =>
    alike_bind hg.subscripts hk.subscripts fun _ => alike_refl _

theorem alike_braced (commas : Bool) : Parser.Alike n (braced g commas) (braced h commas) :=
  alike_same_bind (keeps_expect _ _) fun _ =>
    alike_bind (hg.items _) (hk.items _) fun _ => alike_refl _

theorem alike_fraction (token : Token) : Parser.Alike n (fraction g token) (fraction h token) :=
  alike_bind hg.groups hk.groups fun _ => alike_refl _

theorem alike_binding (token : Token) : Parser.Alike n (binding g token) (binding h token) :=
  alike_bind hg.groups hk.groups fun _ => alike_refl _

theorem alike_prototype : Parser.Alike n (prototype g) (prototype h) :=
  alike_same_bind keeps_peek fun _ => alike_ite (alike_refl _) <| alike_ite (alike_refl _) <|
    alike_bind (alike_identifier hg hk) (keeps_identifier hk) fun _ =>
      alike_same_bind (keeps_expect _ _) fun _ =>
        alike_bind hg.parameters hk.parameters fun _ => alike_refl _

theorem alike_function (token : Token) : Parser.Alike n (function g token) (function h token) :=
  alike_same_bind (keeps_expect _ _) fun _ =>
    alike_bind (alike_prototype hg hk) (keeps_prototype hk) fun _ =>
      alike_same_bind (keeps_expect _ _) fun _ => alike_same_bind (keeps_define _) fun _ =>
        alike_bind (alike_braced hg hk _) (keeps_braced hk _) fun _ => alike_refl _

theorem alike_block (token : Token) : Parser.Alike n (block g token) (block h token) := by
  refine alike_same_bind keeps_texts fun names => ?_
  cases names with
  | nil => exact alike_refl _
  | cons name arguments =>
    exact alike_bind (hg.statements _ _) (hk.statements _ _) fun _ => alike_refl _

theorem alike_afterControlWord (token : Token) :
    Parser.Alike n (afterControlWord g token) (afterControlWord h token) := by
  unfold afterControlWord
  split
  · exact alike_block hg hk _
  · exact alike_function hg hk _
  · exact alike_fraction hg hk _
  · exact alike_binding hg hk _
  · exact alike_bind hg.groups hk.groups fun _ => alike_refl _

omit hk in
theorem alike_callArguments : Parser.Alike n (callArguments g) (callArguments h) :=
  alike_same_bind (keeps_expect _ _) fun _ => alike_same_bind (keeps_sees _) fun _ =>
    alike_ite (alike_refl _) hg.arguments

omit hk in
theorem alike_rightOperand (op : Operator) (rhs : Expr) :
    Parser.Alike n (rightOperand g op rhs) (rightOperand h op rhs) :=
  alike_same_bind keeps_peek fun _ => alike_ite (hg.operators _ _) (alike_refl _)

/-! ## Operands -/

theorem alikeAtToken_controlWord : AlikeAtToken n (controlWord g) (controlWord h) :=
  alikeAtToken_peek_bind fun _ => alikeAtToken_ite (alikeAtToken_refl _) <|
    alikeAtToken_next_bind fun _ => alike_afterControlWord hg hk _

theorem alikeAtToken_parenthesized : AlikeAtToken n (parenthesized g) (parenthesized h) :=
  alikeAtToken_next_bind fun _ =>
    alike_bind hg.expression hk.expression fun _ => alike_refl _

theorem alikeAtToken_signed :
    AlikeAtToken n (signed g g.operand) (signed h h.operand) := by
  refine alikeAtToken_next_bind fun token => ?_
  split
  · exact alike_ite (alike_bind hg.operand hk.operand fun _ => alike_ite (alike_refl _) <|
      alike_bind (hg.operators _ _) (hk.operators _ _) fun _ => alike_refl _) (alike_refl _)
  · exact alike_refl _

theorem alikeAtToken_identifier : AlikeAtToken n (identifier g) (identifier h) :=
  alikeAtToken_next_bind fun _ =>
    alike_bind hg.subscripts hk.subscripts fun _ => alike_refl _

theorem alikeAtToken_name : AlikeAtToken n (name g) (name h) :=
  alikeAtToken_bind (alikeAtToken_identifier hg hk) (takes_identifier hk) fun _ =>
    alike_same_bind (keeps_sees _) fun _ => alike_ite (alike_refl _) <|
      alike_same_bind (keeps_isFunction _) fun _ => alike_ite (alike_refl _) <|
        alike_bind (alike_callArguments hg) (keeps_callArguments hk) fun _ => alike_refl _

/-- Operands are read alike if all parts of fewer tokens are. -/
theorem alike_operandStep : Parser.Alike (n + 1) (operandStep g) (operandStep h) := by
  refine alike_succ (alikeAtToken_peek_bind fun token => ?_) ?_
  · split
    · exact alikeAtToken_controlWord hg hk
    · exact alikeAtToken_signed hg hk
    · exact alikeAtToken_name hg hk
    · exact alikeAtToken_refl _
    · exact alikeAtToken_parenthesized hg hk
    · exact alikeAtToken_refl _
    · exact alikeAtToken_refl _
    · exact alikeAtToken_refl _
  · intro context functions
    rfl

/-! ## Chains -/

/-- Chains of operators are read alike if all parts of fewer tokens are. -/
theorem alike_operatorsStep (lhs : Expr) (least : Nat) :
    Parser.Alike (n + 1) (operatorsStep g lhs least) (operatorsStep h lhs least) := by
  refine alike_same_bind keeps_peek fun token => ?_
  split
  · exact alike_refl _
  · exact alike_ite (alike_refl _) <| alike_same_bind keeps_operatorToken fun _ =>
      alike_succ_bind (alike_operandStep hg hk) (consumes_operandStep hk) fun _ =>
        alike_ite (alike_refl _) <| alike_bind (alike_rightOperand hg _ _)
          (keeps_rightOperand hk _ _) fun _ => hg.operators _ _

/-- Expressions are read alike if all parts of fewer tokens are. -/
theorem alike_expressionStep : Parser.Alike (n + 1) (expressionStep g) (expressionStep h) :=
  alike_bind (alike_operandStep hg hk) (keeps_operandStep hk) fun _ =>
    alike_ite (alike_refl _) (alike_operatorsStep hg hk _ _)

theorem alike_argumentsStep : Parser.Alike (n + 1) (argumentsStep g) (argumentsStep h) := by
  refine alike_succ_bind (alike_expressionStep hg hk) (consumes_expressionStep hk) fun _ =>
    alike_same_bind keeps_next fun separator => ?_
  split
  · exact alike_refl _
  · exact alike_bind hg.arguments hk.arguments fun _ => alike_refl _
  · exact alike_refl _
  · exact alike_refl _

/-! ## Lists -/

theorem alike_subscriptsStep : Parser.Alike (n + 1) (subscriptsStep g) (subscriptsStep h) := by
  refine alike_succ (alikeAtToken_sees_bind fun _ => alikeAtToken_ite (alikeAtToken_refl _) ?_) ?_
  · refine alikeAtToken_next_bind fun _ => alike_same_bind keeps_peek fun following => ?_
    split
    · exact alike_same_bind keeps_next fun _ => alike_bind (hg.items _) (hk.items _) fun _ =>
        alike_bind hg.subscripts hk.subscripts fun _ => alike_refl _
    · exact alike_same_bind keeps_next fun _ =>
        alike_bind hg.subscripts hk.subscripts fun _ => alike_refl _
    · exact alike_same_bind keeps_next fun _ =>
        alike_bind hg.subscripts hk.subscripts fun _ => alike_refl _
    · exact alike_refl _
    · exact alike_refl _
  · intro context functions
    rfl

theorem alike_groupsStep : Parser.Alike (n + 1) (groupsStep g) (groupsStep h) := by
  refine alike_succ (alikeAtToken_sees_bind fun _ => alikeAtToken_ite (alikeAtToken_refl _) ?_) ?_
  · exact alikeAtToken_next_bind fun _ => alike_bind (hg.items _) (hk.items _) fun _ =>
      alike_bind hg.groups hk.groups fun _ => alike_refl _
  · intro context functions
    rfl

theorem alike_parametersStep : Parser.Alike (n + 1) (parametersStep g) (parametersStep h) := by
  refine alike_succ (alikeAtToken_sees_bind fun _ => alikeAtToken_ite (alikeAtToken_refl _) ?_) ?_
  · refine alikeAtToken_bind (alikeAtToken_identifier hg hk) (takes_identifier hk) fun _ =>
      alike_same_bind keeps_next fun separator => ?_
    split
    · exact alike_refl _
    · exact alike_bind hg.parameters hk.parameters fun _ => alike_refl _
    · exact alike_refl _
  · intro context functions
    rfl

/-- Items are read alike if all parts of fewer tokens are. -/
theorem alike_itemsStep (commas : Bool) :
    Parser.Alike (n + 1) (itemsStep g commas) (itemsStep h commas) := by
  refine alike_same_bind keeps_skipEnds fun _ => ?_
  refine alike_succ (alikeAtToken_peek_bind fun following => ?_) ?_
  · refine alikeAtToken_ite (alikeAtToken_refl _) <| alikeAtToken_ite (alikeAtToken_refl _) <|
      alikeAtToken_ite (alikeAtToken_next_bind fun _ => hg.items _) ?_
    intro context cursor _ few
    exact alike_succ_bind (alike_expressionStep hg hk) (consumes_expressionStep hk)
      (fun _ => alike_bind (hg.items _) (hk.items _) fun _ => alike_refl _) context cursor
      (Nat.lt_succ_of_le few)
  · intro context functions
    rfl

/-- Statements of an environment are read alike if all parts of fewer tokens are. -/
theorem alike_statementsStep (opening : Token) (name : String) :
    Parser.Alike (n + 1) (statementsStep g opening name) (statementsStep h opening name) :=
  alike_same_bind keeps_skipEnds fun _ => alike_same_bind keeps_peek fun _ =>
    alike_ite (alike_refl _) <| alike_ite (alike_refl _) <|
      alike_succ_bind (alike_expressionStep hg hk) (consumes_expressionStep hk) fun _ =>
        alike_bind (hg.statements _ _) (hk.statements _ _) fun _ => alike_refl _

/-- What a grammar reads with one token more depends on what it is built from with one less. -/
theorem alike_step : Alike (n + 1) (step g) (step h) where
  operand := alike_operandStep hg hk
  expression := alike_expressionStep hg hk
  operators := alike_operatorsStep hg hk
  subscripts := alike_subscriptsStep hg hk
  arguments := alike_argumentsStep hg hk
  items := alike_itemsStep hg hk
  groups := alike_groupsStep hg hk
  parameters := alike_parametersStep hg hk
  statements := alike_statementsStep hg hk

end

/-! ## Enough depth -/

/-- On no tokens at all grammars read alike. -/
theorem alike_zero (g h : Grammar) : Alike 0 g h where
  operand _ _ few := absurd few (Nat.not_lt_zero _)
  expression _ _ few := absurd few (Nat.not_lt_zero _)
  operators _ _ _ _ few := absurd few (Nat.not_lt_zero _)
  subscripts _ _ few := absurd few (Nat.not_lt_zero _)
  arguments _ _ few := absurd few (Nat.not_lt_zero _)
  items _ _ _ few := absurd few (Nat.not_lt_zero _)
  groups _ _ few := absurd few (Nat.not_lt_zero _)
  parameters _ _ few := absurd few (Nat.not_lt_zero _)
  statements _ _ _ _ few := absurd few (Nat.not_lt_zero _)

/-- Grammars of at least the depth `n` read alike wherever fewer than `n` tokens are left. -/
theorem alike_ofDepth (n d e : Nat) (hd : n ≤ d) (he : n ≤ e) :
    Alike n (ofDepth d) (ofDepth e) := by
  induction n generalizing d e with
  | zero => exact alike_zero _ _
  -- both depths are successors, so both grammars are steps above grammars that are alike already
  | succ n ih =>
    obtain ⟨d, rfl⟩ := Nat.exists_eq_add_of_lt hd
    obtain ⟨e, rfl⟩ := Nat.exists_eq_add_of_lt he
    exact alike_step (ih (n + d) (n + e) (Nat.le_add_right n d) (Nat.le_add_right n e))
      (keeps_ofDepth _)

/-- The grammar that reads with `f n` where `n` tokens are left. -/
def byLength (f : Nat → Grammar) : Grammar where
  operand context cursor := (f cursor.rest.length).operand context cursor
  expression context cursor := (f cursor.rest.length).expression context cursor
  operators lhs least context cursor := (f cursor.rest.length).operators lhs least context cursor
  subscripts context cursor := (f cursor.rest.length).subscripts context cursor
  arguments context cursor := (f cursor.rest.length).arguments context cursor
  items commas context cursor := (f cursor.rest.length).items commas context cursor
  groups context cursor := (f cursor.rest.length).groups context cursor
  parameters context cursor := (f cursor.rest.length).parameters context cursor
  statements opening name context cursor :=
    (f cursor.rest.length).statements opening name context cursor

/-- A grammar that is chosen by what is left reads like any that is alike enough. -/
theorem alike_byLength {n : Nat} {g : Grammar} {f : Nat → Grammar}
    (h : ∀ k < n, Alike (k + 1) g (f k)) : Alike n g (byLength f) where
  operand context cursor few := (h _ few).operand context cursor (Nat.lt_succ_self _)
  expression context cursor few := (h _ few).expression context cursor (Nat.lt_succ_self _)
  operators lhs least context cursor few :=
    (h _ few).operators lhs least context cursor (Nat.lt_succ_self _)
  subscripts context cursor few := (h _ few).subscripts context cursor (Nat.lt_succ_self _)
  arguments context cursor few := (h _ few).arguments context cursor (Nat.lt_succ_self _)
  items commas context cursor few := (h _ few).items commas context cursor (Nat.lt_succ_self _)
  groups context cursor few := (h _ few).groups context cursor (Nat.lt_succ_self _)
  parameters context cursor few := (h _ few).parameters context cursor (Nat.lt_succ_self _)
  statements opening name context cursor few :=
    (h _ few).statements opening name context cursor (Nat.lt_succ_self _)

/-- A grammar that is chosen by what is left only reads on. -/
theorem keeps_byLength {f : Nat → Grammar} (h : ∀ n, (f n).Keeps) : (byLength f).Keeps where
  operand context cursor := (h _).operand context cursor
  expression context cursor := (h _).expression context cursor
  operators lhs least context cursor := (h _).operators lhs least context cursor
  subscripts context cursor := (h _).subscripts context cursor
  arguments context cursor := (h _).arguments context cursor
  items commas context cursor := (h _).items commas context cursor
  groups context cursor := (h _).groups context cursor
  parameters context cursor := (h _).parameters context cursor
  statements opening name context cursor := (h _).statements opening name context cursor

/-- Grammars that read alike whatever is left are equal. -/
theorem eq_of_alike {g h : Grammar} (alike : ∀ n, Alike n g h) : g = h := by
  -- the bound is chosen for each cursor, so that all its tokens are within it
  have deep : ∀ cursor : Cursor, Alike (cursor.rest.length + 1) g h := fun cursor => alike _
  obtain ⟨g1, g2, g3, g4, g5, g6, g7, g8, g9⟩ := g
  obtain ⟨h1, h2, h3, h4, h5, h6, h7, h8, h9⟩ := h
  simp only [mk.injEq]
  refine ⟨?_, ?_, ?_, ?_, ?_, ?_, ?_, ?_, ?_⟩
  · funext context cursor
    exact (deep cursor).operand context cursor (Nat.lt_succ_self _)
  · funext context cursor
    exact (deep cursor).expression context cursor (Nat.lt_succ_self _)
  · funext lhs least context cursor
    exact (deep cursor).operators lhs least context cursor (Nat.lt_succ_self _)
  · funext context cursor
    exact (deep cursor).subscripts context cursor (Nat.lt_succ_self _)
  · funext context cursor
    exact (deep cursor).arguments context cursor (Nat.lt_succ_self _)
  · funext commas context cursor
    exact (deep cursor).items commas context cursor (Nat.lt_succ_self _)
  · funext context cursor
    exact (deep cursor).groups context cursor (Nat.lt_succ_self _)
  · funext context cursor
    exact (deep cursor).parameters context cursor (Nat.lt_succ_self _)
  · funext opening name context cursor
    exact (deep cursor).statements opening name context cursor (Nat.lt_succ_self _)

/-- The grammar that takes for each text the depth that the text needs. -/
def full : Grammar := byLength fun n => ofDepth (n + 1)

/-- The full grammar reads like any grammar of sufficient depth. -/
theorem alike_full {n d : Nat} (h : n ≤ d) : Alike n (ofDepth d) full :=
  alike_byLength fun k few => alike_ofDepth (k + 1) d (k + 1) (by omega) (Nat.le_refl _)

/-- The full grammar leaves a tail of what it is given. -/
theorem keeps_full : full.Keeps := keeps_byLength fun _ => keeps_ofDepth _

/-- The full grammar is built from itself. -/
theorem full_eq_step : full = step full := by
  have built : ∀ n, Alike n (step full) full := by
    intro n
    refine alike_byLength fun k _ => ?_
    -- one step above `full` is alike to one step above the depth `k`, which is the depth `k + 1`
    have below : Alike k full (ofDepth k) := (alike_full (Nat.le_refl k)).symm
    exact alike_step below keeps_full
  exact (eq_of_alike built).symm

/-! ## The equations of the full grammar -/

theorem full_operand : full.operand = operandStep full := congrArg operand full_eq_step

/-- An operand takes at least one token. -/
theorem consumes_full_operand : full.operand.Consumes := by
  rw [full_operand]
  exact consumes_operandStep keeps_full

theorem full_operatorsStep (lhs : Expr) (least : Nat) :
    full.operators lhs least = operatorsStep full lhs least :=
  congrFun (congrFun (congrArg operators full_eq_step) lhs) least

/-- Operators of too low a precedence are left alone. -/
theorem full_operators_of_lt {lhs : Expr} {least : Nat} {context : Context} {cursor : Cursor}
    (loose : ∀ op, operatorAt? (cursor.token context) = some op → op.precedence < least) :
    full.operators lhs least context cursor = .done lhs cursor := by
  rw [full_operatorsStep, operatorsStep, peek_bind]
  cases seen : operatorAt? (cursor.token context) with
  | none => rfl
  | some op =>
    simp only [loose op seen, if_true]
    rfl

/-- A right operand takes the operators that bind tighter than the one before it. -/
theorem full_rightOperand (op : Operator) (rhs : Expr) :
    rightOperand full op rhs = full.operators rhs (op.precedence + 1) := by
  funext context cursor
  rw [rightOperand, peek_bind]
  split
  · rfl
  · next loose =>
    refine (full_operators_of_lt fun tighter seen => ?_).symm
    simp only [bindsTighter, seen, decide_eq_true_eq] at loose
    omega

/-- An operator of sufficient precedence is read with its right operand. -/
theorem full_operators_of_le {lhs : Expr} {least : Nat} {context : Context} {cursor : Cursor}
    {op : Operator} (seen : operatorAt? (cursor.token context) = some op)
    (tight : least ≤ op.precedence) :
    full.operators lhs least context cursor = (do
      let token ← operatorToken
      let rhs ← full.operand
      if endsStatement rhs then return .binary op lhs rhs (some token)
      let rhs ← full.operators rhs (op.precedence + 1)
      full.operators (.binary op lhs rhs (some token)) least : Parser Expr) context cursor := by
  rw [full_operatorsStep, operatorsStep, peek_bind]
  simp only [seen, Nat.not_lt.2 tight, if_false, full_rightOperand, full_operand]

theorem full_subscripts : full.subscripts = subscriptsStep full :=
  congrArg subscripts full_eq_step

theorem full_items (commas : Bool) : full.items commas = itemsStep full commas :=
  congrFun (congrArg items full_eq_step) commas

theorem full_groups : full.groups = groupsStep full := congrArg groups full_eq_step

/-- An expression is an operand and the operators that follow it. -/
theorem full_expression : full.expression = (do
    let e ← full.operand
    if endsStatement e then return e
    full.operators e 0) := by
  have unfolded : full.expression = expressionStep full := congrArg expression full_eq_step
  rw [unfolded, full_operand]
  simp only [full_operatorsStep]
  rfl

end Grammar

/-- Expressions are read with the full grammar. -/
theorem Parser.expression_eq_full : Parser.expression = Grammar.full.expression := rfl

end TexAlgebra
