import TexAlgebra.Proofs.Grammar.Excerpt
import TexAlgebra.Proofs.Grammar.Extension
/-!
# Looking ahead

Where a text ends a statement ends as well, and parsers that look one token ahead decide alike in
both cases. So what is read at the end of a text is read there, with the same tokens, if the text
goes on with the end of a statement (`Parser.persists_expression`). If nothing is added to the text
but names of functions that were noted before it, then this holds of faults, too.

Most parsers need nothing but that their parts do the same. Where a parser looks at the token behind
the text, it either fails at the end of the text or takes the end of a statement for the same.
-/

namespace TexAlgebra

/-- Whether the longer text goes on with the end of a statement, or ends where the excerpt does. -/
structure Excerpt.IsClosed (E : Excerpt) : Prop where
  more : ∀ t ∈ E.more.head?, t.kind = .endOfStatement
  ending : E.more = [] → E.context.ending = E.whole.ending

namespace Parser

variable {α β : Type} {E : Excerpt}

/-- Whether a parser does the same in the longer text wherever it reads something, and everywhere if
nothing follows the excerpt. -/
def Persists (E : Excerpt) (p : Parser α) : Prop :=
  ∀ k, (p E.context k).isDone = true ∨ E.more = [] → E.Same p k

/-- Whether `Persists` holds where the token `t` is at the cursor in both texts. -/
def PersistsAt (E : Excerpt) (t : Token) (p : Parser α) : Prop :=
  ∀ k, k.token E.context = t → (E.inWhole k).token E.whole = t →
    (p E.context k).isDone = true ∨ E.more = [] → E.Same p k

/-- Whether `p'` reads at the end of the excerpt in the longer text whatever `p` reads there in the
excerpt. -/
def EndsAs (E : Excerpt) (p p' : Parser α) : Prop :=
  ∀ k, k.rest = [] → (p E.context k).isDone = true →
    p' E.whole (E.inWhole k) = (p E.context k).mapCursor E.inWhole

/-! ## Combination -/

theorem Persists.at {p : Parser α} (h : Persists E p) (t : Token) : PersistsAt E t p :=
  fun k _ _ => h k

theorem Fails.isDone_eq_false {p : Parser α} (h : p.Fails) (context : Context) (k : Cursor) :
    (p context k).isDone = false := by
  cases reading : p context k with
  | done a after => exact absurd reading (h _ _ _ _)
  | _ => rfl

/-- A parser that always fails is not done in either text. -/
theorem Fails.endsAs {p : Parser α} (h : p.Fails) (p' : Parser α) : EndsAs E p p' := by
  intro k _ done
  rw [h.isDone_eq_false] at done
  cases done

theorem persists_pure (a : α) : Persists E (pure a) := fun _ _ => E.same_pure a

theorem persists_fail (cause : ParseCause) (token : Token) :
    Persists E (fail cause token : Parser α) :=
  fun _ _ => E.same_fail cause token

theorem persists_exhausted : Persists E (exhausted : Parser α) := fun _ _ => E.same_exhausted

/-- A sequence is the same in the whole if its first step is and what follows persists. -/
theorem same_bind_of_persists {p : Parser α} {f : α → Parser β} {k : Cursor}
    (hp : (p E.context k).isDone = true ∨ E.more = [] → E.Same p k)
    (hf : ∀ a, Persists E (f a))
    (counts : ((p >>= f) E.context k).isDone = true ∨ E.more = []) : E.Same (p >>= f) k := by
  rw [bind_eq, andThen] at counts
  refine E.same_bind (hp ?_) fun a after reading => hf a after ?_
  · cases reading : p E.context k with
    | done a after => exact .inl rfl
    | _ =>
      rw [reading] at counts
      exact .inr (counts.resolve_left Bool.false_ne_true)
  · rwa [reading] at counts

/-- A sequence at a token persists if its first step does and what follows persists. -/
theorem persistsAt_bind {p : Parser α} {f : α → Parser β} {t : Token} (hp : PersistsAt E t p)
    (hf : ∀ a, Persists E (f a)) : PersistsAt E t (p >>= f) :=
  fun k token token' => same_bind_of_persists (hp k token token') hf

/-- A sequence persists if both of its steps do. -/
theorem Persists.bind {p : Parser α} {f : α → Parser β} (hp : Persists E p)
    (hf : ∀ a, Persists E (f a)) : Persists E (p >>= f) :=
  fun k => same_bind_of_persists (hp k) hf

theorem persists_ite {p q : Parser α} {c : Prop} [Decidable c] (hp : Persists E p)
    (hq : Persists E q) : Persists E (if c then p else q) := by
  split
  · exact hp
  · exact hq

theorem persistsAt_ite {p q : Parser α} {c : Prop} [Decidable c] {t : Token}
    (hp : PersistsAt E t p) (hq : PersistsAt E t q) : PersistsAt E t (if c then p else q) := by
  split
  · exact hp
  · exact hq

/-! ## Tokens and names -/

section

variable (hE : E.IsClosed)
include hE

/-- The same token is at the cursor in both texts, unless the longer one goes on at the end of the
excerpt. -/
theorem token_eq_or_ended (k : Cursor) : (E.inWhole k).token E.whole = k.token E.context ∨
    k.rest = [] ∧ ((E.inWhole k).token E.whole).kind = .endOfStatement ∧ E.more ≠ [] := by
  by_cases present : k.rest = []
  · cases more : E.more with
    | nil =>
      refine .inl ?_
      rw [Cursor.token, Cursor.token, Excerpt.inWhole, present, more, hE.ending more]
      rfl
    | cons t rest =>
      have first : (E.inWhole k).token E.whole = t := by
        rw [Cursor.token, Excerpt.inWhole, present, more]
        rfl
      exact .inr ⟨present, first ▸ hE.more t (by rw [more]; rfl), List.cons_ne_nil _ _⟩
  · exact .inl (E.token_inWhole present)

/-- What looks at a token persists if it ends alike at the end of the text and at that of a
statement. -/
theorem persists_peek_bind {f : Token → Parser β} (hf : ∀ t, PersistsAt E t (f t))
    (ended : ∀ t t', t.kind = .endOfText → t'.kind = .endOfStatement → EndsAs E (f t) (f t')) :
    Persists E (peek >>= f) := by
  intro k counts
  rw [peek_bind] at counts
  rcases token_eq_or_ended hE k with same | ⟨last, kind, more⟩
  · exact E.same_peek_bind same (hf _ k rfl same counts)
  · have text : (k.token E.context).kind = .endOfText := by rw [Cursor.token, last]; rfl
    exact ended _ _ text kind k last (counts.resolve_right more)

/-- Where a parser fails at the end of a text, it is not asked what it does in the longer one. -/
theorem persists_peek_bind_of_fails {f : Token → Parser β} (hf : ∀ t, PersistsAt E t (f t))
    (atEnd : ∀ t, t.kind = .endOfText → (f t).Fails) : Persists E (peek >>= f) :=
  persists_peek_bind hE hf fun t t' text _ => (atEnd t text).endsAs (f t')

omit hE in
theorem persistsAt_peek_bind {f : Token → Parser β} {t : Token} (hf : PersistsAt E t (f t)) :
    PersistsAt E t (peek >>= f) := by
  intro k token token' counts
  subst token
  exact E.same_peek_bind token' (hf k rfl token' counts)

omit hE in
theorem persistsAt_next_bind {f : Token → Parser β} {t : Token} (present : t.kind ≠ .endOfText)
    (hf : Persists E (f t)) : PersistsAt E t (next >>= f) := by
  intro k token _ counts
  subst token
  refine E.same_next_bind (fun last => present ?_) (hf _ counts)
  rw [Cursor.token, last]
  rfl

/-- What reads a token persists if it refuses the end of the text. -/
theorem persists_next_bind {f : Token → Parser β} (hf : ∀ t, Persists E (f t))
    (atEnd : ∀ t, t.kind = .endOfText → (f t).Fails) : Persists E (next >>= f) := by
  intro k counts
  by_cases present : k.rest = []
  · have text : (k.token E.context).kind = .endOfText := by rw [Cursor.token, present]; rfl
    rw [next_bind, (atEnd _ text).isDone_eq_false] at counts
    have none : E.more = [] := counts.resolve_left Bool.false_ne_true
    have same := (token_eq_or_ended hE k).resolve_right fun more => more.2.2 none
    have dropped : { E.inWhole k with rest := (E.inWhole k).rest.drop 1 } =
        E.inWhole { k with rest := k.rest.drop 1 } := by
      rw [Excerpt.inWhole, Excerpt.inWhole, present, none]
      rfl
    rw [Excerpt.Same, next_bind, next_bind, same, dropped]
    exact hf _ _ (.inr none)
  · exact E.same_next_bind present (hf _ _ counts)

/-- Whether a token of some kind is at the cursor is seen alike, since the longer text goes on with
the end of a statement. -/
theorem persists_sees_bind {kind : TokenKind} {f : Bool → Parser β} (text : kind ≠ .endOfText)
    (statement : kind ≠ .endOfStatement)
    (yes : ∀ t, t.kind = kind → PersistsAt E t (f true)) (no : Persists E (f false)) :
    Persists E (sees kind >>= f) := by
  intro k counts
  rw [sees_bind] at counts
  rcases token_eq_or_ended hE k with same | ⟨last, ends, _⟩
  · refine E.same_sees_bind (by rw [same]) ?_
    by_cases found : (k.token E.context).kind = kind
    · rw [decide_eq_true found] at counts ⊢
      exact yes _ found k rfl same counts
    · rw [decide_eq_false found] at counts ⊢
      exact no k counts
  · have other : (k.token E.context).kind ≠ kind := by
      rw [Cursor.token, last]
      exact text.symm
    refine E.same_sees_bind (iff_of_false (ends ▸ statement.symm) other) ?_
    rw [decide_eq_false other] at counts ⊢
    exact no k counts

/-- To expect a token persists. -/
theorem persists_expect (kind : TokenKind) (character : String) :
    Persists E (expect kind character) := by
  refine persists_next_bind hE (fun t => ?_) fun t ended => ?_
  · exact persists_ite (persists_fail _ _) (persists_ite (persists_pure _) (persists_fail _ _))
  · rw [if_pos ended]
    exact fails_fail _ _

omit hE in
/-- Ends of statements are skipped alike, if there is anything behind them in the excerpt. -/
theorem persists_skipEnds_bind {f : Unit → Parser β} (hf : Persists E (f ()))
    (atEnd : ∀ context functions, (f () context ⟨[], functions⟩).isDone = false) :
    Persists E (skipEnds >>= f) := by
  intro k counts
  let rest := k.rest.dropWhile (·.kind = .endOfStatement)
  have counts : (f () E.context ⟨rest, k.functions⟩).isDone = true ∨ E.more = [] := counts
  have skipped : (k.rest ++ E.more).dropWhile (·.kind = .endOfStatement) = rest ++ E.more := by
    rcases counts with done | none
    · have present : rest ≠ [] := by
        intro none
        rw [none, atEnd] at done
        cases done
      rw [List.dropWhile_append, if_neg (mt List.isEmpty_iff.1 present)]
    · rw [none, List.append_nil, List.append_nil]
  have same := hf ⟨rest, k.functions⟩ counts
  show f () E.whole ⟨(k.rest ++ E.more).dropWhile (·.kind = .endOfStatement), _⟩ = _
  rw [skipped]
  exact same

end

end Parser

namespace Grammar

open TexAlgebra.Parser

/-! ## Groups kept as text -/

/-- Groups that are closed in a text are read alike if the text goes on with the end of a
statement. -/
theorem readTexts_append {E : Excerpt} (hE : E.IsClosed) (rest : List Token)
    (counts : (readTexts E.context.ending rest).1.isOk = true ∨ E.more = []) :
    readTexts E.whole.ending (rest ++ E.more) = ((readTexts E.context.ending rest).1,
      (readTexts E.context.ending rest).2 ++ E.more) := by
  fun_induction readTexts E.context.ending rest with
  | case1 =>
    rw [List.nil_append]
    cases more : E.more with
    | nil => rw [readTexts]
    | cons t rest =>
      have ends := hE.more t (by rw [more]; rfl)
      rw [readTexts, if_neg (by rw [ends]; nofun)]
  | case2 token rest braced inside after none =>
    -- an open group is a fault, so nothing follows
    have nothing : E.more = [] := counts.resolve_left Bool.false_ne_true
    rw [nothing, List.append_nil, List.append_nil, readTexts, if_pos braced, if_pos none,
      hE.ending nothing]
  | case3 token rest braced inside after closes later left again ih =>
    have few : inside.length < rest.length := by
      have := List.length_pos_iff.2 closes
      rw [List.length_drop] at this
      omega
    have inside_eq : (rest ++ E.more).takeWhile (·.kind ≠ .braceClose) = inside := by
      rw [List.takeWhile_append, if_neg (Nat.ne_of_lt few)]
    have after_eq : (rest ++ E.more).drop inside.length = after ++ E.more :=
      List.drop_append_of_le_length (Nat.le_of_lt few)
    have closes' : after ++ E.more ≠ [] := fun none => closes (List.append_eq_nil_iff.1 none).1
    have next : (after ++ E.more).drop 1 = after.drop 1 ++ E.more :=
      List.drop_append_of_le_length (List.length_pos_iff.2 closes)
    rw [again] at ih
    have later_eq := ih (by
      cases later with
      | ok texts => exact .inl rfl
      | error fault => exact counts)
    rw [List.cons_append, readTexts, if_pos braced]
    simp only [inside_eq, after_eq, if_neg closes', next, later_eq]
  | case4 token rest other => rw [List.cons_append, readTexts, if_neg other]

/-- Groups kept as text persist in an excerpt that is closed. -/
theorem persists_texts {E : Excerpt} (hE : E.IsClosed) : Parser.Persists E texts := by
  intro k counts
  have read := readTexts_append hE k.rest (by
    unfold texts at counts
    split at counts
    · next ok => exact .inl (by rw [ok]; rfl)
    · exact .inr (counts.resolve_left Bool.false_ne_true))
  rw [Excerpt.Same, texts, texts, Excerpt.inWhole, read]
  rcases readTexts E.context.ending k.rest with ⟨_ | _, rest⟩ <;> rfl

/-- Whether the parsers of a grammar do the same in a longer text. -/
structure Persists (E : Excerpt) (g : Grammar) : Prop where
  operand : Parser.Persists E g.operand
  expression : Parser.Persists E g.expression
  operators : ∀ lhs least, Parser.Persists E (g.operators lhs least)
  subscripts : Parser.Persists E g.subscripts
  arguments : Parser.Persists E g.arguments
  items : ∀ commas, Parser.Persists E (g.items commas)
  groups : Parser.Persists E g.groups
  parameters : Parser.Persists E g.parameters
  statements : ∀ opening name, Parser.Persists E (g.statements opening name)

section

variable {E : Excerpt} {t : Token} {g : Grammar} (hE : E.IsClosed) (hg : g.Persists E)

/-! ## Names -/

include hg in
theorem persistsAt_identifier (kind : t.kind = .identifier) : PersistsAt E t (identifier g) :=
  persistsAt_next_bind (kind.trans_ne nofun) <| hg.subscripts.bind fun _ => persists_pure _

include hE hg in
theorem persists_subscriptsStep : Parser.Persists E (subscriptsStep g) := by
  refine persists_sees_bind hE nofun nofun (fun _ kind => ?_) (persists_pure _)
  refine persistsAt_next_bind (kind.trans_ne nofun) ?_
  refine persists_peek_bind_of_fails hE (fun t => ?_) fun t ended => ?_
  · cases kind : t.kind with
    | braceOpen =>
      exact persistsAt_next_bind (kind.trans_ne nofun) <| (hg.items _).bind fun _ =>
        hg.subscripts.bind fun _ => persists_pure _
    | identifier | number =>
      exact persistsAt_next_bind (kind.trans_ne nofun) <|
        hg.subscripts.bind fun _ => persists_pure _
    | _ => exact (persists_fail _ _).at _
  · rw [ended]
    exact fails_fail _ _

/-! ## Groups -/

include hE hg in
theorem persists_braced (commas : Bool) : Parser.Persists E (braced g commas) :=
  (persists_expect hE _ _).bind fun _ => (hg.items _).bind fun _ => persists_pure _

include hE hg in
theorem persists_groupsStep : Parser.Persists E (groupsStep g) := by
  refine persists_sees_bind hE nofun nofun (fun _ kind => ?_) (persists_pure _)
  exact persistsAt_next_bind (kind.trans_ne nofun) <| (hg.items _).bind fun _ =>
    hg.groups.bind fun _ => persists_pure _

/-! ## Control words -/

include hg in
theorem persists_fraction (token : Token) : Parser.Persists E (fraction g token) := by
  refine hg.groups.bind fun groups => ?_
  split
  · split
    · exact persists_pure _
    · exact persists_fail _ _
  · exact persists_fail _ _

theorem persists_noteFunction (target value : Expr) :
    Parser.Persists E (noteFunction target value) :=
  persists_ite (fun _ _ => E.same_define target) (persists_pure _)

include hg in
theorem persists_binding (token : Token) : Parser.Persists E (binding g token) := by
  refine hg.groups.bind fun groups => ?_
  split
  · split
    · exact persists_fail _ _
    · exact persists_fail _ _
    · exact persists_ite (persists_fail _ _) <|
        (persists_noteFunction _ _).bind fun _ => persists_pure _
  · exact persists_fail _ _

include hE hg in
theorem persists_prototype : Parser.Persists E (prototype g) := by
  refine persists_peek_bind_of_fails hE (fun t => ?_) fun t ended => ?_
  · refine persistsAt_ite ((persists_fail _ _).at _) ?_
    by_cases kind : t.kind = .identifier
    · rw [if_neg (by simp [kind])]
      exact persistsAt_bind (persistsAt_identifier hg kind) fun _ =>
        (persists_expect hE _ _).bind fun _ => hg.parameters.bind fun _ => persists_pure _
    · rw [if_pos kind]
      exact (persists_fail _ _).at _
  · rw [if_pos ended]
    exact fails_fail _ _

include hE hg in
theorem persists_parametersStep : Parser.Persists E (parametersStep g) := by
  refine persists_sees_bind hE nofun nofun (fun _ kind => ?_) ?_
  · refine persistsAt_bind (persistsAt_identifier hg kind) fun _ =>
      persists_next_bind hE (fun separator => ?_) fun t ended => ?_
    · split
      · exact persists_pure _
      · exact hg.parameters.bind fun _ => persists_pure _
      · exact persists_fail _ _
    · rw [ended]
      exact fails_fail _ _
  · exact (persists_expect hE _ _).bind fun _ => persists_pure _

include hE hg in
theorem persists_function (token : Token) : Parser.Persists E (function g token) := by
  refine (persists_expect hE _ _).bind fun _ => (persists_prototype hE hg).bind fun _ =>
    (persists_expect hE _ _).bind fun _ => Persists.bind (fun _ _ => E.same_define _) fun _ =>
      (persists_braced hE hg _).bind fun _ => ?_
  split
  · exact persists_ite (persists_fail _ _) (persists_pure _)
  · exact persists_fail _ _

include hE hg in
theorem persists_block (token : Token) : Parser.Persists E (block g token) := by
  refine (persists_texts hE).bind fun names => ?_
  split
  · exact persists_fail _ _
  · exact (hg.statements _ _).bind fun _ => persists_pure _

include hE hg in
theorem persists_afterControlWord (token : Token) :
    Parser.Persists E (afterControlWord g token) := by
  unfold afterControlWord
  split
  · exact persists_block hE hg _
  · exact persists_function hE hg _
  · exact persists_fraction hg _
  · exact persists_binding hg _
  · exact hg.groups.bind fun _ => persists_pure _

include hE hg in
theorem persistsAt_controlWord (kind : t.kind = .controlWord) :
    PersistsAt E t (controlWord g) :=
  persistsAt_peek_bind <| persistsAt_ite ((persists_fail _ _).at _) <|
    persistsAt_next_bind (kind.trans_ne nofun) (persists_afterControlWord hE hg _)

/-! ## Operands -/

include hE hg in
theorem persistsAt_parenthesized (kind : t.kind = .parenOpen) :
    PersistsAt E t (parenthesized g) :=
  persistsAt_next_bind (kind.trans_ne nofun) <| hg.expression.bind fun _ =>
    (persists_expect hE _ _).bind fun _ => persists_pure _

include hE hg in
theorem persists_callArguments : Parser.Persists E (callArguments g) :=
  (persists_expect hE _ _).bind fun _ => persists_sees_bind hE nofun nofun
    (fun _ kind => persistsAt_next_bind (kind.trans_ne nofun) (persists_pure _)) hg.arguments

include hE hg in
theorem persistsAt_name (kind : t.kind = .identifier) : PersistsAt E t (name g) := by
  refine persistsAt_bind (persistsAt_identifier hg kind) fun x => ?_
  refine persists_sees_bind hE nofun nofun (fun _ _ => Persists.at ?_ _) (persists_pure _)
  exact Persists.bind (fun _ _ => E.same_isFunction x) fun _ => persists_ite (persists_pure _) <|
    (persists_callArguments hE hg).bind fun _ => persists_pure _

theorem persistsAt_number (kind : t.kind = .number) : PersistsAt E t number :=
  persistsAt_next_bind (kind.trans_ne nofun) (persists_pure _)

include hg in
theorem persistsAt_signed {op : Operator} (kind : t.kind = .operator op) :
    PersistsAt E t (signed g g.operand) := by
  refine persistsAt_next_bind (kind.trans_ne nofun) ?_
  rw [kind]
  refine persists_ite (hg.operand.bind fun _ => ?_) (persists_fail _ _)
  exact persists_ite (persists_pure _) <| (hg.operators _ _).bind fun _ => persists_pure _

include hE hg in
theorem persists_operandStep : Parser.Persists E (operandStep g) := by
  refine persists_peek_bind_of_fails hE (fun t => ?_) fun t ended => ?_
  · cases kind : t.kind with
    | controlWord => exact persistsAt_controlWord hE hg kind
    | operator op => exact persistsAt_signed hg kind
    | identifier => exact persistsAt_name hE hg kind
    | number => exact persistsAt_number kind
    | parenOpen => exact persistsAt_parenthesized hE hg kind
    | _ => exact (persists_fail _ _).at _
  · rw [ended]
    exact fails_fail _ _

/-! ## Expressions -/

theorem operatorAt?_of_endOfText (kind : t.kind = .endOfText) : operatorAt? t = Option.none := by
  rw [operatorAt?, kind]

theorem operatorAt?_of_endOfStatement (kind : t.kind = .endOfStatement) :
    operatorAt? t = Option.none := by
  rw [operatorAt?, kind]

theorem persistsAt_operatorToken : PersistsAt E t operatorToken := by
  refine persistsAt_peek_bind ?_
  cases kind : t.kind with
  | operator op =>
    have read : PersistsAt E t (next >>= fun token => pure token) :=
      persistsAt_next_bind (kind.trans_ne nofun) (persists_pure _)
    rwa [bind_pure] at read
  | _ => exact (persists_pure _).at _

include hE hg in
theorem persists_rightOperand (op : Operator) (rhs : Expr) :
    Parser.Persists E (rightOperand g op rhs) := by
  refine persists_peek_bind hE (fun t => ?_) fun t t' text ends => ?_
  · exact (persists_ite (hg.operators _ _) (persists_pure _)).at _
  · rw [bindsTighter, bindsTighter, operatorAt?_of_endOfText text,
      operatorAt?_of_endOfStatement ends]
    exact fun _ _ _ => rfl

include hE hg in
theorem persists_operatorsStep (lhs : Expr) (least : Nat) :
    Parser.Persists E (operatorsStep g lhs least) := by
  refine persists_peek_bind hE (fun t => ?_) fun t t' text ends => ?_
  · split
    · exact (persists_pure _).at _
    · exact persistsAt_ite ((persists_pure _).at _) <| persistsAt_bind persistsAt_operatorToken
        fun _ => (persists_operandStep hE hg).bind fun _ => persists_ite (persists_pure _) <|
          (persists_rightOperand hE hg _ _).bind fun _ => hg.operators _ _
  · rw [operatorAt?_of_endOfText text, operatorAt?_of_endOfStatement ends]
    exact fun _ _ _ => rfl

include hE hg in
theorem persists_expressionStep : Parser.Persists E (expressionStep g) :=
  (persists_operandStep hE hg).bind fun _ =>
    persists_ite (persists_pure _) (persists_operatorsStep hE hg _ _)

/-! ## Lists of expressions -/

include hE hg in
theorem persists_argumentsStep : Parser.Persists E (argumentsStep g) := by
  refine (persists_expressionStep hE hg).bind fun _ =>
    persists_next_bind hE (fun separator => ?_) fun t ended => ?_
  · split
    · exact persists_pure _
    · exact hg.arguments.bind fun _ => persists_pure _
    · exact persists_fail _ _
    · exact persists_fail _ _
  · rw [ended]
    exact fails_fail _ _

include hE hg in
theorem persists_itemsStep (commas : Bool) : Parser.Persists E (itemsStep g commas) := by
  refine persists_skipEnds_bind ?_ fun context functions => rfl
  refine persists_peek_bind_of_fails hE (fun t => ?_) fun t ended => ?_
  · by_cases closes : t.kind = .braceClose
    · rw [if_pos closes]
      exact persistsAt_next_bind (closes.trans_ne nofun) (persists_pure _)
    rw [if_neg closes]
    refine persistsAt_ite ((persists_fail _ _).at _) ?_
    by_cases comma : (commas && t.kind = .comma) = true
    · have kind : t.kind = .comma := of_decide_eq_true (Bool.and_eq_true_iff.1 comma).2
      rw [if_pos comma]
      exact persistsAt_next_bind (kind.trans_ne nofun) (hg.items _)
    · rw [if_neg comma]
      exact ((persists_expressionStep hE hg).bind fun _ => (hg.items _).bind
        fun _ => persists_pure _).at _
  · rw [ended]
    exact fails_fail _ _

include hE in
theorem persistsAt_closing (kind : t.kind = .controlWord) (name : String) :
    PersistsAt E t (closing name) :=
  persistsAt_next_bind (kind.trans_ne nofun) <| (persists_texts hE).bind fun _ =>
    persists_ite (persists_pure _) (persists_fail _ _)

include hE hg in
theorem persists_statementsStep (opening : Token) (name : String) :
    Parser.Persists E (statementsStep g opening name) := by
  refine persists_skipEnds_bind ?_ fun context functions => rfl
  refine persists_peek_bind_of_fails hE (fun t => ?_) fun t ended => ?_
  · by_cases closes : (t.kind = .controlWord && t.text = "\\end") = true
    · have kind : t.kind = .controlWord := of_decide_eq_true (Bool.and_eq_true_iff.1 closes).1
      rw [if_pos closes]
      exact persistsAt_closing hE kind name
    · rw [if_neg closes]
      refine persistsAt_ite ((persists_fail _ _).at _) (Persists.at ?_ _)
      exact (persists_expressionStep hE hg).bind fun _ => (hg.statements _ _).bind
        fun _ => persists_pure _
  · rw [ended]
    exact fails_fail _ _

/-! ## The grammar -/

include hE hg in
theorem persists_step : (step g).Persists E where
  operand := persists_operandStep hE hg
  expression := persists_expressionStep hE hg
  operators := persists_operatorsStep hE hg
  subscripts := persists_subscriptsStep hE hg
  arguments := persists_argumentsStep hE hg
  items := persists_itemsStep hE hg
  groups := persists_groupsStep hE hg
  parameters := persists_parametersStep hE hg
  statements := persists_statementsStep hE hg

theorem persists_none : none.Persists E where
  operand := persists_exhausted
  expression := persists_exhausted
  operators _ _ := persists_exhausted
  subscripts := persists_exhausted
  arguments := persists_exhausted
  items _ := persists_exhausted
  groups := persists_exhausted
  parameters := persists_exhausted
  statements _ _ := persists_exhausted

include hE in
theorem persists_ofDepth (depth : Nat) : (ofDepth depth).Persists E := by
  induction depth with
  | zero => exact persists_none
  | succ depth ih => exact persists_step hE ih

end

end Grammar

/-- An expression that is read in a text is read in the longer one, with the same tokens, and what
cannot be read is not read there either if nothing follows. -/
theorem Parser.persists_expression {E : Excerpt} (hE : E.IsClosed) : Persists E expression := by
  intro k counts
  let depth := (E.inWhole k).rest.length + 1
  rw [expression_eq_ofDepth E.context (Nat.lt_succ_of_le E.length_rest_le)] at counts
  exact E.same_expression ((Grammar.persists_ofDepth hE depth).expression k counts)

end TexAlgebra
