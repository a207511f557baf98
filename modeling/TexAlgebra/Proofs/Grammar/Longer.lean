import TexAlgebra.Proofs.Grammar.Extension
/-!
# The grammar in a longer text

Whatever the grammar reads in a text it reads in a longer one that goes on with the end of a
statement, and leaves the same rest. So an expression is read there as the same expression, up to
places (`Parser.extends_expression`).
-/

namespace TexAlgebra

namespace Grammar

open TexAlgebra.Parser TexAlgebra.Expr

/-- Whether everything that the grammar reads in a text it reads in the longer one. -/
structure ExtendsTo (E : Extension) (g : Grammar) : Prop where
  operand : Parser.Extends E Expr.Alike g.operand g.operand
  expression : Parser.Extends E Expr.Alike g.expression g.expression
  operators : ∀ {lhs lhs' : Expr}, lhs.Alike lhs' → ∀ least,
    Parser.Extends E Expr.Alike (g.operators lhs least) (g.operators lhs' least)
  subscripts : Parser.Extends E AllAlike g.subscripts g.subscripts
  arguments : Parser.Extends E AllAlike g.arguments g.arguments
  items : ∀ commas, Parser.Extends E AllAlike (g.items commas) (g.items commas)
  groups : Parser.Extends E AllAlike g.groups g.groups
  parameters : Parser.Extends E AllAlike g.parameters g.parameters
  statements : ∀ opening opening' name,
    Parser.Extends E AllAlike (g.statements opening name) (g.statements opening' name)

variable {E : Extension}

/-! ## Groups kept as text -/

/-- A group that is closed in a text is the same in a longer one. -/
theorem inside_extension {more rest rest' : List Token}
    (closes : rest.drop (rest.takeWhile (·.kind ≠ .braceClose)).length ≠ [])
    (continues : (rest ++ more).map Token.unplaced = rest'.map Token.unplaced) :
    (rest.takeWhile (·.kind ≠ .braceClose)).map (·.text) =
        (rest'.takeWhile (·.kind ≠ .braceClose)).map (·.text) ∧
      (rest.drop (rest.takeWhile (·.kind ≠ .braceClose)).length ++ more).map Token.unplaced =
        (rest'.drop (rest'.takeWhile (·.kind ≠ .braceClose)).length).map Token.unplaced := by
  induction rest generalizing rest' with
  | nil => exact absurd rfl closes
  | cons t rest ih =>
    cases rest' with
    | nil => cases continues
    | cons t' rest' =>
      have alike : t.Alike t' := List.head_eq_of_cons_eq continues
      by_cases brace : t.kind = .braceClose
      · have brace' := alike.kind.symm.trans brace
        rw [List.takeWhile_cons_of_neg (by simp [brace]),
          List.takeWhile_cons_of_neg (by simp [brace'])]
        exact ⟨rfl, continues⟩
      · have brace' : t'.kind ≠ .braceClose := alike.kind ▸ brace
        rw [List.takeWhile_cons_of_pos (by simp [brace])] at closes ⊢
        rw [List.takeWhile_cons_of_pos (by simp [brace'])]
        obtain ⟨texts, left⟩ := ih closes (List.tail_eq_of_cons_eq continues)
        exact ⟨by rw [List.map_cons, List.map_cons, texts, alike.text], left⟩

/-- The texts of groups are the same in the longer text: a group that is closed is closed by a brace
of the text itself. -/
theorem readTexts_extension (rest : List Token) {ending : Position} {texts : List String}
    {after : List Token} (read : readTexts ending rest = (.ok texts, after)) (ending' : Position)
    {rest' : List Token}
    (continues : (rest ++ E.more).map Token.unplaced = rest'.map Token.unplaced) :
    ∃ after', readTexts ending' rest' = (.ok texts, after') ∧
      (after ++ E.more).map Token.unplaced = after'.map Token.unplaced := by
  fun_induction readTexts ending rest generalizing rest' texts after with
  | case1 =>
    cases read
    refine ⟨rest', ?_, continues⟩
    -- the longer text goes on with the end of a statement, which opens no group
    cases rest' with
    | nil => rw [readTexts]
    | cons t' rest' =>
      have closed := E.closed
      rw [List.nil_append] at continues
      cases more : E.more with
      | nil =>
        rw [more] at continues
        cases continues
      | cons u us =>
        rw [more] at continues closed
        have alike : u.Alike t' := List.head_eq_of_cons_eq continues
        rw [readTexts, if_neg]
        rw [← alike.kind, closed u rfl]
        nofun
  | case2 => cases read
  | case3 token rest braced inside left closes later last =>
    rename_i again ih
    cases rest' with
    | nil => cases continues
    | cons t' rest' =>
      have alike : token.Alike t' := List.head_eq_of_cons_eq continues
      obtain ⟨inside_eq, left_eq⟩ :=
        inside_extension closes (List.tail_eq_of_cons_eq continues)
      have closes' : rest'.drop (rest'.takeWhile (·.kind ≠ .braceClose)).length ≠ [] := by
        intro none
        rw [none] at left_eq
        exact closes (List.append_eq_nil_iff.1 (List.map_eq_nil_iff.1 left_eq)).1
      have left_eq : (left.drop 1 ++ E.more).map Token.unplaced =
          ((rest'.drop (rest'.takeWhile (·.kind ≠ .braceClose)).length).drop 1).map
            Token.unplaced := by
        rw [List.map_drop, ← left_eq, ← List.map_drop, List.drop_append_of_le_length]
        exact List.length_pos_iff.2 closes
      cases later with
      | error fault => cases read
      | ok later =>
        cases read
        obtain ⟨after', read', continues'⟩ := ih again left_eq
        refine ⟨after', ?_, continues'⟩
        rw [readTexts, if_pos (alike.kind ▸ braced), if_neg closes', read']
        simp only [Except.map, inside, inside_eq]
  | case4 token rest other =>
    cases read
    refine ⟨rest', ?_, continues⟩
    cases rest' with
    | nil => cases continues
    | cons t' rest' =>
      have alike : token.Alike t' := List.head_eq_of_cons_eq continues
      rw [readTexts, if_neg (alike.kind ▸ other)]

/-- Groups kept as text are read alike in a longer text. -/
theorem extends_texts : Parser.Extends E Eq texts texts := by
  intro k k' found after continues reading
  obtain ⟨rest, functions⟩ := k
  simp only [texts] at reading
  split at reading
  · next read =>
    cases reading
    obtain ⟨after', read', continues'⟩ :=
      readTexts_extension rest read E.context'.ending continues.rest
    refine ⟨found, ⟨after', k'.functions⟩, ?_, rfl, continues', continues.functions⟩
    simp only [texts, read']
  · cases reading

section

variable {g : Grammar} (hg : g.ExtendsTo E)
include hg

/-! ## Names -/

theorem extendsAt_identifier {t t' : Token} (alike : t.Alike t') (kind : t.kind = .identifier) :
    ExtendsAt E Expr.Alike t t' (identifier g) (identifier g) :=
  extendsAt_next_bind (kind.trans_ne nofun) <| hg.subscripts.bind fun _ _ all =>
    extends_pure (alike.var all)

theorem extends_subscriptsStep :
    Parser.Extends E AllAlike (subscriptsStep g) (subscriptsStep g) := by
  refine extends_sees_bind nofun nofun (fun _ _ _ kind => ?_) (extends_pure allAlike_nil)
  refine extendsAt_next_bind (kind.trans_ne nofun) ?_
  refine extends_peek_bind_of_fails (fun t t' alike => ?_) fun t ended => ?_
  · rw [← alike.kind]
    cases kind : t.kind with
    | braceOpen =>
      exact extendsAt_next_bind (kind.trans_ne nofun) <| (hg.items _).bind fun _ _ items =>
        hg.subscripts.bind fun _ _ later => extends_pure (items.append later)
    | identifier =>
      exact extendsAt_next_bind (kind.trans_ne nofun) <| hg.subscripts.bind fun _ _ later =>
        extends_pure (.cons (alike.var allAlike_nil) later)
    | number =>
      exact extendsAt_next_bind (kind.trans_ne nofun) <| hg.subscripts.bind fun _ _ later =>
        extends_pure (.cons alike.number later)
    | _ => exact (fails_fail _ _).extendsAt _ _ _
  · rw [ended]
    exact fails_fail _ _

/-! ## Groups -/

theorem extends_braced (commas : Bool) :
    Parser.Extends E Expr.Alike (braced g commas) (braced g commas) :=
  (extends_expect _ _).bind fun _ _ alike => (hg.items _).bind fun _ _ all =>
    extends_pure (alike.group all)

theorem extends_groupsStep : Parser.Extends E AllAlike (groupsStep g) (groupsStep g) := by
  refine extends_sees_bind nofun nofun (fun _ _ alike kind => ?_) (extends_pure allAlike_nil)
  exact extendsAt_next_bind (kind.trans_ne nofun) <| (hg.items _).bind fun _ _ all =>
    hg.groups.bind fun _ _ later => extends_pure (.cons (alike.group all) later)

/-! ## Control words -/

theorem extends_fraction {t t' : Token} (alike : t.Alike t') :
    Parser.Extends E Expr.Alike (fraction g t) (fraction g t') := by
  refine hg.groups.bind fun items items' all => ?_
  rcases items with _ | ⟨a, _ | ⟨b, _ | _⟩⟩
  · exact (fails_fail _ _).extends _
  · exact (fails_fail _ _).extends _
  · obtain ⟨a', b', rfl, ha, hb⟩ := all.pair
    dsimp only
    split
    · next numerator denominator above below =>
      obtain ⟨numerator', above', hn⟩ := ha.unwrap above
      obtain ⟨denominator', below', hd⟩ := hb.unwrap below
      rw [above', below']
      exact extends_pure (alike.binary _ hn hd)
    · exact (fails_fail _ _).extends _
  · exact (fails_fail _ _).extends _

omit hg in
theorem extends_noteFunction {target target' value value' : Expr} (ht : target.Alike target')
    (hv : value.Alike value') :
    Parser.Extends E (fun _ _ => True) (noteFunction target value)
      (noteFunction target' value') :=
  extends_ite (by rw [hv.isFunction]) (extends_define ht) (extends_pure trivial)

theorem extends_binding {t t' : Token} (alike : t.Alike t') :
    Parser.Extends E Expr.Alike (binding g t) (binding g t') := by
  refine hg.groups.bind fun items items' all => ?_
  rcases items with _ | ⟨a, _ | ⟨b, _ | _⟩⟩
  · exact (fails_fail _ _).extends _
  · exact (fails_fail _ _).extends _
  · obtain ⟨a', b', rfl, ha, hb⟩ := all.pair
    dsimp only
    split
    · exact (fails_fail _ _).extends _
    · exact (fails_fail _ _).extends _
    · next target value first second =>
      obtain ⟨single, isVariable⟩ := Option.filter_eq_some_iff.1 first
      obtain ⟨target', single', ht⟩ := ha.unwrap single
      obtain ⟨value', second', hv⟩ := hb.unwrap second
      have first' : a'.unwrap?.filter Expr.isVariable = some target' :=
        Option.filter_eq_some_iff.2 ⟨single', ht.isVariable ▸ isVariable⟩
      rw [first', second']
      exact extends_ite (by rw [hv.isGroup]) ((fails_fail _ _).extends _) <|
        (extends_noteFunction ht hv).bind fun _ _ _ =>
          extends_pure (alike.binding ht hv)
  · exact (fails_fail _ _).extends _

/-- The name, the parameters and the token of a prototype are alike. -/
theorem extends_prototype : Parser.Extends E
    (fun r r' => r.1.Alike r'.1 ∧ AllAlike r.2.1 r'.2.1 ∧ r.2.2.Alike r'.2.2)
    (prototype g) (prototype g) := by
  refine extends_peek_bind_of_fails (fun t t' alike => ?_) fun t ended => ?_
  · rw [← alike.kind]
    refine extendsAt_ite Iff.rfl ((fails_fail _ _).extendsAt _ _ _) ?_
    by_cases kind : t.kind = .identifier
    · simp only [kind, ne_eq, not_true_eq_false, if_false]
      exact (extendsAt_identifier hg alike kind).bind fun _ _ named =>
        (extends_expect _ _).bind fun _ _ _ => hg.parameters.bind fun _ _ all =>
          extends_pure ⟨named, all, alike⟩
    · rw [if_pos kind, if_pos kind]
      exact (fails_fail _ _).extendsAt _ _ _
  · rw [if_pos ended]
    exact fails_fail _ _

theorem extends_parametersStep :
    Parser.Extends E AllAlike (parametersStep g) (parametersStep g) := by
  refine extends_sees_bind nofun nofun (fun _ _ alike kind => ?_) ?_
  · refine (extendsAt_identifier hg alike kind).bind fun _ _ parameter =>
      extends_next_bind (fun separator separator' alike => ?_) fun t ended => ?_
    · rw [← alike.kind]
      cases separator.kind with
      | parenClose => exact extends_pure (.cons parameter allAlike_nil)
      | comma => exact hg.parameters.bind fun _ _ all => extends_pure (.cons parameter all)
      | _ => exact (fails_fail _ _).extends _
    · rw [ended]
      exact fails_fail _ _
  · exact (extends_expect _ _).bind fun _ _ _ => extends_pure allAlike_nil

theorem extends_function {t t' : Token} (alike : t.Alike t') :
    Parser.Extends E Expr.Alike (function g t) (function g t') := by
  refine (extends_expect _ _).bind fun _ _ _ => (extends_prototype hg).bind fun r r' hr =>
    (extends_expect _ _).bind fun _ _ _ => (extends_define hr.1).bind fun _ _ _ =>
      (extends_braced hg _).bind fun e e' he => ?_
  split
  · next body single =>
    obtain ⟨body', single', hb⟩ := he.unwrap single
    rw [single']
    exact extends_ite (by rw [hb.isGroup]) ((fails_fail _ _).extends _)
      (extends_pure (alike.function hr.2.2 hr.1 hr.2.1 hb))
  · exact (fails_fail _ _).extends _

theorem extends_block {t t' : Token} (alike : t.Alike t') :
    Parser.Extends E Expr.Alike (block g t) (block g t') := by
  refine extends_texts.bind fun names _ same => ?_
  cases same
  cases names with
  | nil => exact (fails_fail _ _).extends _
  | cons name arguments =>
    exact (hg.statements _ _ _).bind fun _ _ all => extends_pure (alike.block all _ _)

theorem extends_afterControlWord {t t' : Token} (alike : t.Alike t') :
    Parser.Extends E Expr.Alike (afterControlWord g t) (afterControlWord g t') := by
  unfold afterControlWord
  rw [← alike.text]
  split
  · exact extends_block hg alike
  · exact extends_function hg alike
  · exact extends_fraction hg alike
  · exact extends_binding hg alike
  · exact hg.groups.bind fun _ _ all => extends_pure (alike.command all _)

theorem extendsAt_controlWord {t t' : Token} (alike : t.Alike t')
    (kind : t.kind = .controlWord) :
    ExtendsAt E Expr.Alike t t' (controlWord g) (controlWord g) :=
  extendsAt_peek_bind <| extendsAt_ite (by rw [alike.text]) ((fails_fail _ _).extendsAt _ _ _) <|
    extendsAt_next_bind (kind.trans_ne nofun) (extends_afterControlWord hg alike)

/-! ## Operands -/

theorem extendsAt_parenthesized {t t' : Token} (kind : t.kind = .parenOpen) :
    ExtendsAt E Expr.Alike t t' (parenthesized g) (parenthesized g) :=
  extendsAt_next_bind (kind.trans_ne nofun) <| hg.expression.bind fun _ _ he =>
    (extends_expect _ _).bind fun _ _ _ => extends_pure he

theorem extends_callArguments :
    Parser.Extends E AllAlike (callArguments g) (callArguments g) :=
  (extends_expect _ _).bind fun _ _ _ => extends_sees_bind nofun nofun
    (fun _ _ _ kind => extendsAt_next_bind (kind.trans_ne nofun) (extends_pure allAlike_nil))
    hg.arguments

theorem extendsAt_name {t t' : Token} (alike : t.Alike t') (kind : t.kind = .identifier) :
    ExtendsAt E Expr.Alike t t' (name g) (name g) := by
  refine (extendsAt_identifier hg alike kind).bind fun x x' hx => ?_
  refine extends_sees_bind nofun nofun (fun _ _ _ _ => Extends.at ?_ _ _) (extends_pure hx)
  refine (extends_isFunction hx).bind fun known _ same => ?_
  cases same
  exact extends_ite Iff.rfl (extends_pure hx) <| (extends_callArguments hg).bind fun _ _ all =>
    extends_pure (hx.call all)

omit hg in
theorem extendsAt_number {t t' : Token} (alike : t.Alike t') (kind : t.kind = .number) :
    ExtendsAt E Expr.Alike t t' number number :=
  extendsAt_next_bind (kind.trans_ne nofun) (extends_pure alike.number)

theorem extendsAt_signed {t t' : Token} (alike : t.Alike t') {op : Operator}
    (kind : t.kind = .operator op) :
    ExtendsAt E Expr.Alike t t' (signed g g.operand) (signed g g.operand) := by
  refine extendsAt_next_bind (kind.trans_ne nofun) ?_
  rw [← alike.kind, kind]
  refine extends_ite Iff.rfl (hg.operand.bind fun e e' he => ?_) ((fails_fail _ _).extends _)
  exact extends_ite (by rw [he.endsStatement]) (extends_pure (alike.unary op he)) <|
    (hg.operators he _).bind fun _ _ he => extends_pure (alike.unary op he)

/-- An operand is read alike in a longer text. -/
theorem extends_operandStep : Parser.Extends E Expr.Alike (operandStep g) (operandStep g) := by
  refine extends_peek_bind_of_fails (fun t t' alike => ?_) fun t ended => ?_
  · rw [← alike.kind]
    cases kind : t.kind with
    | controlWord => exact extendsAt_controlWord hg alike kind
    | operator op => exact extendsAt_signed hg alike kind
    | identifier => exact extendsAt_name hg alike kind
    | number => exact extendsAt_number alike kind
    | parenOpen => exact extendsAt_parenthesized hg kind
    | _ => exact (fails_fail _ _).extendsAt _ _ _
  · rw [ended]
    exact fails_fail _ _

/-! ## Expressions -/

omit hg in
/-- Where the text ends there is no operator, and in the longer text neither. -/
theorem operatorAt?_eq_of_sees {t t' : Token} (sees : Extension.Sees t t') :
    operatorAt? t = operatorAt? t' := by
  unfold operatorAt?
  cases sees with
  | same alike => rw [alike.kind]
  | ended last more => rcases more with more | more <;> rw [last, more]

omit hg in
theorem extendsAt_operatorToken {t t' : Token} (alike : t.Alike t') :
    ExtendsAt E Token.Alike t t' operatorToken operatorToken := by
  refine extendsAt_peek_bind ?_
  rw [← alike.kind]
  cases kind : t.kind with
  | operator op =>
    intro k k' a after continues there there' reading
    cases reading
    exact ⟨_, _, rfl, there ▸ there' ▸ alike,
      continues_drop continues (there ▸ kind.trans_ne nofun)⟩
  | _ => exact (extends_pure alike.impliedProduct).at _ _

theorem extends_rightOperand (op : Operator) {rhs rhs' : Expr} (h : rhs.Alike rhs') :
    Parser.Extends E Expr.Alike (rightOperand g op rhs) (rightOperand g op rhs') :=
  extends_peek_bind fun t t' sees => extendsAt_ite
    (by rw [bindsTighter, bindsTighter, operatorAt?_eq_of_sees sees])
    ((hg.operators h _).at _ _) ((extends_pure h).at _ _)

/-- A chain of operators is read alike in a longer text. -/
theorem extends_operatorsStep {lhs lhs' : Expr} (h : lhs.Alike lhs') (least : Nat) :
    Parser.Extends E Expr.Alike (operatorsStep g lhs least) (operatorsStep g lhs' least) := by
  refine extends_peek_bind fun t t' sees => ?_
  rw [← operatorAt?_eq_of_sees sees]
  cases sees with
  | ended last more =>
    rw [operatorAt?, last]
    exact (extends_pure h).at _ _
  | same alike =>
    cases operatorAt? t with
    | none => exact (extends_pure h).at _ _
    | some op =>
      refine extendsAt_ite Iff.rfl ((extends_pure h).at _ _) ?_
      refine (extendsAt_operatorToken alike).bind fun token token' alike =>
        (extends_operandStep hg).bind fun rhs rhs' hr => ?_
      exact extends_ite (by rw [hr.endsStatement]) (extends_pure (alike.binary op h hr)) <|
        (extends_rightOperand hg op hr).bind fun _ _ hr =>
          hg.operators (alike.binary op h hr) least

/-- An expression is read alike in a longer text. -/
theorem extends_expressionStep :
    Parser.Extends E Expr.Alike (expressionStep g) (expressionStep g) :=
  (extends_operandStep hg).bind fun _ _ he => extends_ite (by rw [he.endsStatement])
    (extends_pure he) (extends_operatorsStep hg he 0)

/-! ## Lists of expressions -/

theorem extends_argumentsStep :
    Parser.Extends E AllAlike (argumentsStep g) (argumentsStep g) := by
  refine (extends_expressionStep hg).bind fun _ _ he =>
    extends_next_bind (fun separator separator' alike => ?_) fun t ended => ?_
  · rw [← alike.kind]
    cases separator.kind with
    | parenClose => exact extends_pure (.cons he allAlike_nil)
    | comma => exact hg.arguments.bind fun _ _ all => extends_pure (.cons he all)
    | _ => exact (fails_fail _ _).extends _
  · rw [ended]
    exact fails_fail _ _

theorem extends_itemsStep (commas : Bool) :
    Parser.Extends E AllAlike (itemsStep g commas) (itemsStep g commas) := by
  refine extends_skipEnds_bind ?_ fun context functions => nofun
  refine extends_peek_bind_of_fails (fun t t' alike => ?_) fun t ended => ?_
  · rw [← alike.kind]
    by_cases closes : t.kind = .braceClose
    · rw [if_pos closes, if_pos closes]
      exact extendsAt_next_bind (closes.trans_ne nofun) (extends_pure allAlike_nil)
    rw [if_neg closes, if_neg closes]
    refine extendsAt_ite Iff.rfl ((fails_fail _ _).extendsAt _ _ _) ?_
    by_cases comma : (commas && t.kind = .comma) = true
    · have kind : t.kind = .comma := of_decide_eq_true (Bool.and_eq_true_iff.1 comma).2
      rw [if_pos comma]
      exact extendsAt_next_bind (kind.trans_ne nofun) (hg.items _)
    · rw [if_neg comma]
      exact ((extends_expressionStep hg).bind fun _ _ he => (hg.items _).bind fun _ _ all =>
        extends_pure (.cons he all)).at _ _
  · rw [ended]
    exact fails_fail _ _

omit hg in
theorem extendsAt_closing {t t' : Token} (kind : t.kind = .controlWord) (name : String) :
    ExtendsAt E AllAlike t t' (closing name) (closing name) := by
  refine extendsAt_next_bind (kind.trans_ne nofun) <| extends_texts.bind fun texts _ same => ?_
  cases same
  exact extends_ite Iff.rfl (extends_pure allAlike_nil) ((fails_fail _ _).extends _)

theorem extends_statementsStep (opening opening' : Token) (name : String) :
    Parser.Extends E AllAlike (statementsStep g opening name)
      (statementsStep g opening' name) := by
  refine extends_skipEnds_bind ?_ fun context functions => nofun
  refine extends_peek_bind_of_fails (fun t t' alike => ?_) fun t ended => ?_
  · rw [← alike.kind, ← alike.text]
    by_cases closes : (t.kind = .controlWord && t.text = "\\end") = true
    · have kind : t.kind = .controlWord := of_decide_eq_true (Bool.and_eq_true_iff.1 closes).1
      rw [if_pos closes, if_pos closes]
      exact extendsAt_closing kind name
    · rw [if_neg closes, if_neg closes]
      refine extendsAt_ite Iff.rfl ((fails_fail _ _).extendsAt _ _ _) (Extends.at ?_ _ _)
      exact (extends_expressionStep hg).bind fun _ _ he => (hg.statements _ _ _).bind
        fun _ _ all => extends_pure (.cons he all)
  · rw [ended]
    exact fails_fail _ _

/-- One more level is read alike in a longer text. -/
theorem extends_step : (step g).ExtendsTo E where
  operand := extends_operandStep hg
  expression := extends_expressionStep hg
  operators := extends_operatorsStep hg
  subscripts := extends_subscriptsStep hg
  arguments := extends_argumentsStep hg
  items := extends_itemsStep hg
  groups := extends_groupsStep hg
  parameters := extends_parametersStep hg
  statements := extends_statementsStep hg

end

theorem extends_none : none.ExtendsTo E where
  operand := fails_exhausted.extends _
  expression := fails_exhausted.extends _
  operators _ _ := fails_exhausted.extends _
  subscripts := fails_exhausted.extends _
  arguments := fails_exhausted.extends _
  items _ := fails_exhausted.extends _
  groups := fails_exhausted.extends _
  parameters := fails_exhausted.extends _
  statements _ _ _ := fails_exhausted.extends _

/-- All levels are read alike in a longer text. -/
theorem extends_ofDepth (depth : Nat) : (ofDepth depth).ExtendsTo E := by
  induction depth with
  | zero => exact extends_none
  | succ depth ih => exact extends_step ih

end Grammar

/-- An expression that is read in a text is read in the longer one, the same up to places. -/
theorem Parser.extends_expression {E : Extension} :
    Extends E Expr.Alike expression expression := by
  intro k k' e after continues reading
  -- the depth that the longer text needs is enough for both
  have deep : k.rest.length ≤ k'.rest.length := by
    have lengths := congrArg List.length continues.rest
    simp only [List.length_map, List.length_append] at lengths
    omega
  have same := (Grammar.alike_ofDepth (k.rest.length + 1) (k.rest.length + 1)
    (k'.rest.length + 1) (Nat.le_refl _) (Nat.succ_le_succ deep)).expression E.context k
    (Nat.lt_succ_self _)
  exact (Grammar.extends_ofDepth _).expression continues (same ▸ reading)

end TexAlgebra
