import TexAlgebra.Proofs.Grammar.Notes
/-!
# Names that are noted

Whatever is read, names are only added, and none is added unless the head of a function is completed
among the tokens that are read (`Parser.notes_expression`). The proof goes through the grammar once
(`Grammar.IsHonest`).
-/

namespace TexAlgebra

variable {inHead : Bool}

namespace Grammar

open TexAlgebra.Parser

/-! ## Parts of the grammar -/

/-- Whether the expression is not a function. -/
abbrev IsNoFunction (e : Expr) : Prop := e.isFunction = false

/-- Whether none of the expressions is a function. -/
abbrev AreNoFunctions (es : List Expr) : Prop := ∀ e ∈ es, IsNoFunction e

/-- Whether no function is all that a group holds. -/
abbrev HoldNoFunctions (groups : List Expr) : Prop :=
  ∀ e ∈ groups, ∀ item, e.unwrap? = some item → IsNoFunction item

/-- A group without functions holds none alone. -/
theorem isNoFunction_of_unwrap {items : List Expr} {t : Option Token} (all : AreNoFunctions items)
    {item : Expr} (h : (Expr.group items t).unwrap? = some item) : IsNoFunction item := by
  unfold Expr.unwrap? at h
  split at h
  · cases h
  · next same =>
    cases h
    cases same
    exact all _ List.mem_cons_self
  · cases h
    rfl

/-- Whether every parser of the grammar notes names for completed heads only. -/
structure IsHonest (g : Grammar) : Prop where
  kept : g.Keeps
  ends : g.parameters.EndsWith .parenClose
  operand : ∀ {P}, g.operand.Notes false P IsNoFunction
  expression : ∀ {P}, g.expression.Notes false P IsNoFunction
  operators : ∀ {P : Prop} {lhs : Expr}, (P → IsNoFunction lhs) → ∀ least,
    (g.operators lhs least).Notes false P IsNoFunction
  subscripts : ∀ {P}, g.subscripts.Notes false P fun _ => True
  arguments : ∀ {P}, g.arguments.Notes false P fun _ => True
  items : ∀ {P} commas, (g.items commas).Notes false P AreNoFunctions
  groups : ∀ {P}, g.groups.Notes false P HoldNoFunctions
  parameters : ∀ {P}, g.parameters.Notes false P fun _ => True
  statements : ∀ {P} opening name, (g.statements opening name).Notes false P fun _ => True

/-- Groups kept as text note nothing. -/
theorem notes_texts {P : Prop} : texts.Notes inHead P fun _ => True := by
  intro context k
  have shorter := readTexts_suffix context.ending k.rest
  unfold texts
  revert shorter
  rcases readTexts context.ending k.rest with ⟨_ | _, rest⟩
  · exact fun shorter => .of_suffix shorter fun _ => trivial
  · exact fun shorter => .of_suffix shorter fun _ => trivial

section

variable {g : Grammar} (hg : g.IsHonest) {P : Prop}
include hg

/-! ## Names -/

theorem notes_identifier : (identifier g).Notes false P IsNoFunction :=
  notes_next.then fun _ => hg.subscripts.then fun _ => notes_pure fun _ => rfl

theorem notes_subscriptsStep : (subscriptsStep g).Notes false P fun _ => True := by
  refine (notes_sees _).then fun _ => notes_ite (notes_pure fun _ => trivial) ?_
  refine notes_next.then fun _ => notes_peek_bind fun following => Notes.at ?_ _
  split
  · exact notes_next.then fun _ => (hg.items _).then fun _ =>
      hg.subscripts.then fun _ => notes_pure fun _ => trivial
  · exact notes_next.then fun _ => hg.subscripts.then fun _ => notes_pure fun _ => trivial
  · exact notes_next.then fun _ => hg.subscripts.then fun _ => notes_pure fun _ => trivial
  · exact notes_fail
  · exact notes_fail

/-! ## Groups -/

theorem notes_braced (commas : Bool) : (braced g commas).Notes false P fun e =>
    ∀ item, e.unwrap? = some item → IsNoFunction item :=
  (notes_expect _ _).then fun _ => (hg.items _).bind fun _ =>
    notes_pure fun holds _ => isNoFunction_of_unwrap holds.2

theorem notes_groupsStep : (groupsStep g).Notes false P HoldNoFunctions :=
  (notes_sees _).then fun _ => notes_ite (notes_pure fun _ _ h => nomatch h) <|
    notes_next.then fun _ => (hg.items _).bind fun _ => hg.groups.bind fun _ =>
      notes_pure fun holds =>
        List.forall_mem_cons.2 ⟨fun _ => isNoFunction_of_unwrap holds.1.2, holds.2⟩

/-! ## Control words -/

theorem notes_fraction (token : Token) : (fraction g token).Notes false P IsNoFunction := by
  refine hg.groups.then fun _ => ?_
  split
  · split
    · exact notes_pure fun _ => rfl
    · exact notes_fail
  · exact notes_fail

/-- A name that is bound to a function is noted. -/
theorem notes_binding (token : Token) : (binding g token).Notes false P IsNoFunction := by
  refine hg.groups.bind fun groups => ?_
  split
  · next a b =>
    split
    · exact notes_fail
    · exact notes_fail
    · next target value bound given =>
      have plain (holds : P ∧ HoldNoFunctions [a, b]) : IsNoFunction value :=
        holds.2 b (by simp) value given
      have noted : (noteFunction target value).Notes false (P ∧ HoldNoFunctions [a, b])
          fun _ => True := by
        unfold noteFunction
        split
        · next function =>
          exact notes_define _ fun holds => Bool.false_ne_true ((plain holds).symm.trans function)
        · exact notes_pure fun _ => trivial
      exact notes_ite notes_fail (noted.then fun _ => notes_pure fun _ => rfl)
  · exact notes_fail

theorem notes_prototype : (prototype g).Notes false P fun _ => True :=
  notes_peek_bind fun _ => Notes.at (notes_ite notes_fail <| notes_ite notes_fail <|
    (notes_identifier hg).then fun _ => (notes_expect _ _).then fun _ =>
      hg.parameters.then fun _ => notes_pure fun _ => trivial) _

theorem notes_parametersStep : (parametersStep g).Notes false P fun _ => True := by
  refine (notes_sees _).then fun _ => notes_ite ?_ ?_
  · exact (notes_expect _ _).then fun _ => notes_pure fun _ => trivial
  · refine (notes_identifier hg).then fun _ => notes_next.then fun _ => ?_
    split
    · exact notes_pure fun _ => trivial
    · exact hg.parameters.then fun _ => notes_pure fun _ => trivial
    · exact notes_fail

/-- A prototype ends with its closing parenthesis. -/
theorem endsWith_prototype : (prototype g).EndsWith .parenClose := by
  refine endsWith_bind keeps_peek fun token => ?_
  split
  · exact fun _ _ _ _ h => nomatch h
  split
  · exact fun _ _ _ _ h => nomatch h
  · exact endsWith_bind (keeps_identifier hg.kept) fun name =>
      endsWith_bind (keeps_expect _ _) fun _ => hg.ends.bind_pure _

/-- Parameters end with a closing parenthesis. -/
theorem endsWith_parametersStep : (parametersStep g).EndsWith .parenClose := by
  refine endsWith_bind (keeps_sees _) fun _ => ?_
  split
  · exact (endsWith_expect _ _).bind_pure _
  refine endsWith_bind (keeps_identifier hg.kept) fun parameter => ?_
  refine endsWith_next_bind fun separator => ?_
  split
  · next same => exact endsBehind_pure same nofun
  · next same => exact (hg.ends.bind_pure _).behind (same.trans_ne nofun)
  · exact fun _ _ _ _ h => nomatch h

/-- Up to the end of its head, a function is read without its name being noted. -/
theorem notes_function (token : Token) : (function g token).Notes true P fun _ => False := by
  have split : function g token = expect .braceOpen "\x7b" >>= fun _ =>
      (prototype g >>= fun r => expect .braceClose "\x7d" >>= fun _ => pure r) >>= fun r =>
        define r.1 >>= fun _ => braced g false >>= fun e =>
          e.unwrap?.elim (fail .badFunctionBody token) fun body =>
            if body.isGroup then fail .badFunctionBody token
            else pure (.function .defined r.1 r.2.1 (some r.2.2) body [] (some token)) := by
    simp only [function, bind_assoc, pure_bind]
    refine bind_congr fun _ => bind_congr fun r => ?_
    obtain ⟨name, parameters, head⟩ := r
    refine bind_congr fun _ => bind_congr fun _ => bind_congr fun e => ?_
    cases e.unwrap? with
    | none => rfl
    | some body => rfl
  rw [split]
  refine (notes_expect _ _).then fun _ =>
    ((notes_prototype hg).within.closed (endsWith_prototype hg) _).bind fun r => ?_
  refine (notes_define _ And.right).then fun _ => ?_
  refine (notes_braced hg _).within.then fun e => ?_
  cases e.unwrap? with
  | none => exact notes_fail
  | some body => exact notes_ite notes_fail (notes_pure And.right)

theorem notes_block (token : Token) : (block g token).Notes false P IsNoFunction := by
  refine notes_texts.then fun _ => ?_
  split
  · exact notes_fail
  · exact (hg.statements _ _).then fun _ => notes_pure fun _ => rfl

/-- A control word notes nothing unless the head of a function is completed behind it. -/
theorem notesAt_controlWord {token : Token} (word : token.kind = .controlWord) :
    (controlWord g).NotesAt false P token IsNoFunction := by
  refine notesAt_peek_bind ?_
  split
  · exact notes_fail.at _
  by_cases defines : token.text = "\\func"
  · refine notesAt_next_bind (by simp [Token.definesFunction, word, defines]) ?_
    have same : afterControlWord g token = function g token := by
      simp only [afterControlWord, defines]
    rw [same]
    exact (notes_function hg token).mono id fun _ => False.elim
  · refine Notes.at (notes_next.then fun _ => ?_) _
    unfold afterControlWord
    split
    · exact notes_block hg _
    · next same => exact absurd same defines
    · exact notes_fraction hg _
    · exact notes_binding hg _
    · exact hg.groups.then fun _ => notes_pure fun _ => rfl

/-! ## Operands -/

theorem notes_parenthesized : (parenthesized g).Notes false P IsNoFunction :=
  notes_next.then fun _ => hg.expression.bind fun _ => (notes_expect _ _).bind fun _ =>
    notes_pure fun holds => holds.1.2

theorem notes_callArguments : (callArguments g).Notes false P fun _ => True :=
  (notes_expect _ _).then fun _ => (notes_sees _).then fun _ =>
    notes_ite (notes_next.then fun _ => notes_pure fun _ => trivial) hg.arguments

theorem notes_name : (name g).Notes false P IsNoFunction :=
  (notes_identifier hg).bind fun _ => (notes_sees _).then fun _ =>
    notes_ite (notes_pure And.right) <| (notes_isFunction _).then fun _ =>
      notes_ite (notes_pure And.right) <| (notes_callArguments hg).then fun _ =>
        notes_pure fun _ => rfl

omit hg in
theorem notes_number : number.Notes false P IsNoFunction :=
  notes_next.then fun _ => notes_pure fun _ => rfl

theorem notes_signed : (signed g g.operand).Notes false P IsNoFunction := by
  refine notes_next.then fun _ => ?_
  split
  · split
    · exact hg.operand.bind fun _ => notes_ite (notes_pure fun _ => rfl) <|
        (hg.operators And.right _).then fun _ => notes_pure fun _ => rfl
    · exact notes_fail
  · exact notes_fail

/-- An operand notes nothing unless a head is completed in it. -/
theorem notes_operandStep : (operandStep g).Notes false P IsNoFunction := by
  refine notes_peek_bind fun token => ?_
  split
  · next same => exact notesAt_controlWord hg same
  · exact (notes_signed hg).at _
  · exact (notes_name hg).at _
  · exact notes_number.at _
  · exact (notes_parenthesized hg).at _
  · exact notes_fail.at _
  · exact notes_fail.at _
  · exact notes_fail.at _

/-! ## Expressions -/

omit hg in
theorem notes_operatorToken : operatorToken.Notes false P fun _ => True := by
  refine notes_peek_bind fun token => Notes.at ?_ _
  split
  · exact notes_next
  · exact notes_pure fun _ => trivial

theorem notes_rightOperand (op : Operator) {rhs : Expr} (plain : P → IsNoFunction rhs) :
    (rightOperand g op rhs).Notes false P IsNoFunction :=
  notes_peek_bind fun _ => (notes_ite (hg.operators plain _) (notes_pure plain)).at _

/-- A chain of operators notes nothing unless a head is completed in it. -/
theorem notes_operatorsStep {lhs : Expr} (plain : P → IsNoFunction lhs) (least : Nat) :
    (operatorsStep g lhs least).Notes false P IsNoFunction := by
  refine notes_peek_bind fun token => Notes.at ?_ _
  split
  · exact notes_pure plain
  · exact notes_ite (notes_pure plain) <| notes_operatorToken.then fun _ =>
      (notes_operandStep hg).bind fun _ => notes_ite (notes_pure fun _ => rfl) <|
        (notes_rightOperand hg _ And.right).then fun _ =>
          hg.operators (fun _ => rfl) _

/-- An expression notes nothing unless a head is completed in it. -/
theorem notes_expressionStep : (expressionStep g).Notes false P IsNoFunction :=
  (notes_operandStep hg).bind fun _ =>
    notes_ite (notes_pure And.right) (notes_operatorsStep hg And.right _)

/-! ## Lists of expressions -/

theorem notes_argumentsStep : (argumentsStep g).Notes false P fun _ => True := by
  refine (notes_expressionStep hg).then fun _ =>
    notes_next.then fun _ => ?_
  split
  · exact notes_pure fun _ => trivial
  · exact hg.arguments.then fun _ => notes_pure fun _ => trivial
  · exact notes_fail
  · exact notes_fail

theorem notes_itemsStep (commas : Bool) : (itemsStep g commas).Notes false P AreNoFunctions :=
  notes_skipEnds.then fun _ => notes_peek_bind fun _ => Notes.at (
    notes_ite (notes_next.then fun _ => notes_pure fun _ _ h => nomatch h) <|
      notes_ite notes_fail <| notes_ite (notes_next.then fun _ => hg.items _) <|
        (notes_expressionStep hg).bind fun _ => (hg.items _).bind fun _ =>
          notes_pure fun holds => List.forall_mem_cons.2 ⟨holds.1.2, holds.2⟩) _

omit hg in
theorem notes_closing (name : String) : (closing name).Notes false P fun _ => True :=
  notes_next.then fun _ => notes_texts.then fun _ =>
    notes_ite (notes_pure fun _ => trivial) notes_fail

theorem notes_statementsStep (opening : Token) (name : String) :
    (statementsStep g opening name).Notes false P fun _ => True :=
  notes_skipEnds.then fun _ => notes_peek_bind fun _ => Notes.at (
    notes_ite (notes_closing _) <| notes_ite notes_fail <|
      (notes_expressionStep hg).then fun _ =>
        (hg.statements _ _).then fun _ => notes_pure fun _ => trivial) _

/-- One more level notes names for completed heads only. -/
theorem isHonest_step : (step g).IsHonest where
  kept := keeps_step hg.kept
  ends := endsWith_parametersStep hg
  operand := notes_operandStep hg
  expression := notes_expressionStep hg
  operators plain := notes_operatorsStep hg plain
  subscripts := notes_subscriptsStep hg
  arguments := notes_argumentsStep hg
  items := notes_itemsStep hg
  groups := notes_groupsStep hg
  parameters := notes_parametersStep hg
  statements := notes_statementsStep hg

end

theorem isHonest_none : none.IsHonest where
  kept := keeps_none
  ends _ _ _ _ h := nomatch h
  operand := notes_exhausted
  expression := notes_exhausted
  operators _ _ := notes_exhausted
  subscripts := notes_exhausted
  arguments := notes_exhausted
  items _ := notes_exhausted
  groups := notes_exhausted
  parameters := notes_exhausted
  statements _ _ := notes_exhausted

/-- All levels note names for completed heads only. -/
theorem isHonest_ofDepth (depth : Nat) : (ofDepth depth).IsHonest := by
  induction depth with
  | zero => exact isHonest_none
  | succ depth ih => exact isHonest_step ih

end Grammar

/-- Reading an expression only adds names, and adds none if no head is completed. -/
theorem Parser.notes_expression : expression.Notes false True Grammar.IsNoFunction :=
  fun context cursor => (Grammar.isHonest_ofDepth _).expression context cursor

end TexAlgebra
