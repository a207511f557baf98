import TexAlgebra.Proofs.Grammar.Excerpt
import TexAlgebra.Proofs.Grammar.Pieces
/-!
# Reading a piece of a text

The grammar reads every piece of a text like a text of its own (`Grammar.isLocal_ofDepth`), up to a
token that breaks off what was read. So whether some tokens of a text are an expression can be told
from these tokens (`Parser.isLocal_expression`).

The proof goes through the grammar once, one production after the other. Groups that are kept as
text need a look of their own, for they are read as far as they go, whether they are closed or
not.
-/

namespace TexAlgebra

namespace Grammar

open TexAlgebra.Parser

/-! ## Groups kept as text -/

/-- A group that is closed comes before those behind it. -/
theorem readTexts_of_braceOpen {ending : Position} {token : Token} {rest inside after : List Token}
    (opens : token.kind = .braceOpen) (inside_eq : rest.takeWhile (·.kind ≠ .braceClose) = inside)
    (after_eq : rest.drop inside.length = after) (closes : after ≠ []) :
    readTexts ending (token :: rest) =
      ((readTexts ending (after.drop 1)).1.map (String.join (inside.map (·.text)) :: ·),
        (readTexts ending (after.drop 1)).2) := by
  rw [readTexts, if_pos opens]
  simp only [inside_eq, after_eq, if_neg closes]

/-- The groups at the start of a piece are those that are found there in a longer text. -/
theorem readTexts_eq_iff {ending : Position} {ts us more : List Token}
    (breaks : us = [] → ∀ t ∈ more.head?, t.Breaks) : ∀ names : List String,
    readTexts ending (ts ++ more) = (.ok names, us ++ more) ↔
      readTexts ending ts = (.ok names, us) := by
  fun_induction readTexts ending ts with
  | case1 =>
    intro names
    by_cases none : us = []
    · have left : readTexts ending more = (.ok [], more) := by
        cases more with
        | nil => rw [readTexts]
        | cons t more => rw [readTexts, if_neg (breaks none t rfl).group]
      rw [List.nil_append, left, none]
      simp
    · have positive := List.length_pos_iff.2 none
      refine iff_of_false (fun reading => ?_) (fun reading => ?_)
      · have shorter := (readTexts_suffix ending ([] ++ more)).length_le
        rw [reading] at shorter
        simp only [List.nil_append, List.length_append] at shorter
        omega
      · cases reading
        exact none rfl
  | case2 token rest braced inside after unclosed =>
    -- a group that is open at the end of the piece could be closed only behind it
    intro names
    refine iff_of_false (fun reading => ?_) nofun
    have all : inside.length = rest.length :=
      Nat.le_antisymm (List.takeWhile_prefix _).length_le (List.drop_eq_nil_iff.1 unclosed)
    have inside_eq : (rest ++ more).takeWhile (·.kind ≠ .braceClose) =
        rest ++ more.takeWhile (·.kind ≠ .braceClose) := by
      rw [List.takeWhile_append, if_pos all]
    by_cases closes : (rest ++ more).drop
        (rest ++ more.takeWhile (·.kind ≠ .braceClose)).length = []
    · rw [List.cons_append, readTexts, if_pos braced] at reading
      simp only [inside_eq, if_pos closes] at reading
      cases reading
    · rw [List.cons_append, readTexts_of_braceOpen braced inside_eq rfl closes] at reading
      have shorter := (readTexts_suffix ending
        (((rest ++ more).drop (rest ++ more.takeWhile (·.kind ≠ .braceClose)).length).drop
          1)).length_le
      have positive := List.length_pos_iff.2 closes
      rw [(Prod.mk.inj reading).2] at shorter
      simp only [List.length_drop, List.length_append] at shorter positive
      omega
  | case3 token rest braced inside after closes later left again ih =>
    intro names
    have few : inside.length < rest.length := by
      have := List.length_pos_iff.2 closes
      rw [List.length_drop] at this
      omega
    have inside_eq : (rest ++ more).takeWhile (·.kind ≠ .braceClose) = inside := by
      rw [List.takeWhile_append, if_neg (Nat.ne_of_lt few)]
    have after_eq : (rest ++ more).drop inside.length = after ++ more :=
      List.drop_append_of_le_length (Nat.le_of_lt few)
    have closes' : after ++ more ≠ [] := fun none => closes (List.append_eq_nil_iff.1 none).1
    have next : (after ++ more).drop 1 = after.drop 1 ++ more :=
      List.drop_append_of_le_length (List.length_pos_iff.2 closes)
    rw [List.cons_append, readTexts_of_braceOpen braced inside_eq after_eq closes', next]
    -- both sides ask for the same groups behind this one
    have behind (r : Except ParseFault (List String) × List Token) (us : List Token) :
        (r.1.map (String.join (inside.map (·.text)) :: ·), r.2) = (.ok names, us) ↔
          ∃ names', names = String.join (inside.map (·.text)) :: names' ∧
            r = (.ok names', us) := by
      obtain ⟨_ | found, left⟩ := r
      · simp [Except.map]
      · simp only [Except.map, Prod.mk.injEq, Except.ok.injEq]
        constructor
        · rintro ⟨rfl, rfl⟩
          exact ⟨found, rfl, rfl, rfl⟩
        · rintro ⟨names', rfl, rfl, rfl⟩
          exact ⟨rfl, rfl⟩
    have same := behind (later, left) us
    rw [behind, same, ← again]
    simp only [ih]
  | case4 token rest other =>
    intro names
    rw [List.cons_append, readTexts, if_neg other, ← List.cons_append]
    simp only [Prod.mk.injEq, List.append_cancel_right_eq]

/-- Groups kept as text are read from the piece, unless a brace opens behind it. -/
theorem isLocal_texts : texts.IsLocal := by
  refine ⟨keeps_texts, fun ts context us more fs fs' names breaks => ?_⟩
  have groups (rest left : List Token) :
      texts context ⟨rest, fs⟩ = .done names ⟨left, fs'⟩ ↔
        fs = fs' ∧ readTexts context.ending rest = (.ok names, left) := by
    unfold texts
    rcases readTexts context.ending rest with ⟨_ | found, after⟩
    · simp
    · simp only [Reading.done.injEq, Cursor.mk.injEq, Prod.mk.injEq, Except.ok.injEq]
      tauto
  rw [groups, groups, readTexts_eq_iff breaks names]

/-! ## The grammar -/

/-- Whether every parser of the grammar reads a piece like a text of its own. Arguments are never
empty: a call without any is read before them. -/
structure IsLocal (g : Grammar) : Prop where
  operand : g.operand.IsLocal
  expression : g.expression.IsLocal
  operators : ∀ lhs least, (g.operators lhs least).IsLocal
  subscripts : g.subscripts.IsLocal
  arguments : g.arguments.IsLocal
  consumes_arguments : g.arguments.Consumes
  items : ∀ commas, (g.items commas).IsLocal
  groups : g.groups.IsLocal
  parameters : g.parameters.IsLocal
  statements : ∀ opening name, (g.statements opening name).IsLocal

theorem IsLocal.keeps {g : Grammar} (h : g.IsLocal) : g.Keeps where
  operand := h.operand.keeps
  expression := h.expression.keeps
  operators lhs least := (h.operators lhs least).keeps
  subscripts := h.subscripts.keeps
  arguments := h.arguments.keeps
  items commas := (h.items commas).keeps
  groups := h.groups.keeps
  parameters := h.parameters.keeps
  statements opening name := (h.statements opening name).keeps

section

variable {g : Grammar} (hg : g.IsLocal)
include hg

/-! ### Names -/

theorem isLocalAtToken_identifier : (identifier g).IsLocalAtToken :=
  isLocalAtToken_next_bind fun _ => hg.subscripts.bind fun _ => isLocal_pure _

/-- Subscripts are local: what breaks off is no mark. -/
theorem isLocal_subscriptsStep : (subscriptsStep g).IsLocal := by
  refine isLocal_sees_bind nofun (fun t breaks => breaks.subscript) ?_ (isLocal_pure _)
  refine isLocalAtToken_next_bind fun _ => ?_
  -- behind the mark a token is taken, or the subscript is refused
  refine IsLocalAtToken.of_consumes (isLocalAtToken_peek_bind fun t => ?_) ?_
  · split
    · exact isLocalAtToken_next_bind fun _ => (hg.items _).bind fun _ =>
        hg.subscripts.bind fun _ => isLocal_pure _
    · exact isLocalAtToken_next_bind fun _ => hg.subscripts.bind fun _ => isLocal_pure _
    · exact isLocalAtToken_next_bind fun _ => hg.subscripts.bind fun _ => isLocal_pure _
    · exact (isLocal_fail _ _).atToken
    · exact (isLocal_fail _ _).atToken
  · refine consumes_of_takes (takes_peek_bind fun t => ?_) fun _ _ _ _ => nofun
    have hk := hg.keeps
    split
    · exact takes_next_bind fun _ => keeps_bind (hk.items _) fun _ =>
        keeps_bind hk.subscripts fun _ => keeps_done _
    · exact takes_next_bind fun _ => keeps_bind hk.subscripts fun _ => keeps_done _
    · exact takes_next_bind fun _ => keeps_bind hk.subscripts fun _ => keeps_done _
    · exact takes_fail _ _
    · exact takes_fail _ _

/-! ### Groups -/

theorem isLocal_braced (commas : Bool) : (braced g commas).IsLocal :=
  (isLocal_expect _ _).bind fun _ => (hg.items _).bind fun _ => isLocal_pure _

/-- Groups are local: what breaks off opens none. -/
theorem isLocal_groupsStep : (groupsStep g).IsLocal := by
  refine isLocal_sees_bind nofun (fun t breaks => breaks.group) ?_ (isLocal_pure _)
  exact isLocalAtToken_next_bind fun _ => (hg.items _).bind fun _ =>
    hg.groups.bind fun _ => isLocal_pure _

/-! ### Control words -/

theorem isLocal_fraction (token : Token) : (fraction g token).IsLocal := by
  refine hg.groups.bind fun groups => ?_
  split
  · split
    · exact isLocal_pure _
    · exact isLocal_fail _ _
  · exact isLocal_fail _ _

omit hg in
theorem isLocal_noteFunction (target value : Expr) : (noteFunction target value).IsLocal :=
  isLocal_ite (isLocal_define _) (isLocal_pure _)

theorem isLocal_binding (token : Token) : (binding g token).IsLocal := by
  refine hg.groups.bind fun groups => ?_
  split
  · split
    · exact isLocal_fail _ _
    · exact isLocal_fail _ _
    · exact isLocal_ite (isLocal_fail _ _) <|
        (isLocal_noteFunction _ _).bind fun _ => isLocal_pure _
  · exact isLocal_fail _ _

theorem isLocal_prototype : (prototype g).IsLocal := by
  have hk := hg.keeps
  refine IsLocalAtToken.of_consumes (isLocalAtToken_peek_bind fun t => ?_) ?_
  · exact isLocalAtToken_ite (isLocal_fail _ _).atToken <|
      isLocalAtToken_ite (isLocal_fail _ _).atToken <|
        (isLocalAtToken_identifier hg).bind fun _ => (isLocal_expect _ _).bind fun _ =>
          hg.parameters.bind fun _ => isLocal_pure _
  · refine consumes_of_takes (takes_peek_bind fun t => takes_ite (takes_fail _ _) <|
      takes_ite (takes_fail _ _) <| takes_bind (takes_identifier hk) fun _ =>
        keeps_bind (keeps_expect _ _) fun _ => keeps_bind hk.parameters fun _ => keeps_done _)
      fun _ _ _ _ => nofun

theorem isLocal_parametersStep : (parametersStep g).IsLocal := by
  have hk := hg.keeps
  refine isLocal_sees_bind_of_takes nofun ?_ ?_ ?_ ?_
  · refine (isLocalAtToken_identifier hg).bind fun _ =>
      isLocal_next_bind (fun separator => ?_) fun t ended => ?_
    · split
      · exact isLocal_pure _
      · exact hg.parameters.bind fun _ => isLocal_pure _
      · exact isLocal_fail _ _
    · rw [ended]
      exact fails_fail _ _
  · refine takes_bind (takes_identifier hk) fun _ => keeps_bind keeps_next fun _ => ?_
    split
    · exact keeps_done _
    · exact keeps_bind hk.parameters fun _ => keeps_done _
    · exact keeps_fail _ _
  · exact (isLocal_expect _ _).bind fun _ => isLocal_pure _
  · exact consumes_bind consumes_expect fun _ => keeps_done _

theorem isLocal_function (token : Token) : (function g token).IsLocal := by
  refine (isLocal_expect _ _).bind fun _ => (isLocal_prototype hg).bind fun _ =>
    (isLocal_expect _ _).bind fun _ => (isLocal_define _).bind fun _ =>
      (isLocal_braced hg _).bind fun _ => ?_
  split
  · exact isLocal_ite (isLocal_fail _ _) (isLocal_pure _)
  · exact isLocal_fail _ _

theorem isLocal_block (token : Token) : (block g token).IsLocal := by
  refine isLocal_texts.bind fun names => ?_
  split
  · exact isLocal_fail _ _
  · exact (hg.statements _ _).bind fun _ => isLocal_pure _

theorem isLocal_afterControlWord (token : Token) : (afterControlWord g token).IsLocal := by
  unfold afterControlWord
  split
  · exact isLocal_block hg _
  · exact isLocal_function hg _
  · exact isLocal_fraction hg _
  · exact isLocal_binding hg _
  · exact hg.groups.bind fun _ => isLocal_pure _

theorem isLocalAtToken_controlWord : (controlWord g).IsLocalAtToken :=
  isLocalAtToken_peek_bind fun _ => isLocalAtToken_ite (isLocal_fail _ _).atToken <|
    isLocalAtToken_next_bind fun _ => isLocal_afterControlWord hg _

/-! ### Operands -/

theorem isLocalAtToken_parenthesized : (parenthesized g).IsLocalAtToken :=
  isLocalAtToken_next_bind fun _ => hg.expression.bind fun _ =>
    (isLocal_expect _ _).bind fun _ => isLocal_pure _

theorem isLocal_callArguments : (callArguments g).IsLocal :=
  (isLocal_expect _ _).bind fun _ => isLocal_sees_bind_of_takes nofun
    (isLocalAtToken_next_bind fun _ => isLocal_pure _) (takes_next_bind fun _ => keeps_done _)
    hg.arguments hg.consumes_arguments

theorem isLocalAtToken_name : (name g).IsLocalAtToken := by
  refine (isLocalAtToken_identifier hg).bind fun x => ?_
  refine isLocal_sees_bind nofun (fun t breaks => breaks.kind_ne_parenOpen) ?_ (isLocal_pure _)
  exact IsLocal.atToken <| (isLocal_isFunction x).bind fun _ => isLocal_ite (isLocal_pure _) <|
    (isLocal_callArguments hg).bind fun _ => isLocal_pure _

omit hg in
theorem isLocalAtToken_number : number.IsLocalAtToken :=
  isLocalAtToken_next_bind fun _ => isLocal_pure _

theorem isLocalAtToken_signed : (signed g g.operand).IsLocalAtToken := by
  refine isLocalAtToken_next_bind fun _ => ?_
  split
  · exact isLocal_ite (hg.operand.bind fun _ => isLocal_ite (isLocal_pure _) <|
      (hg.operators _ _).bind fun _ => isLocal_pure _) (isLocal_fail _ _)
  · exact isLocal_fail _ _

/-- An operand is local. -/
theorem isLocal_operandStep : (operandStep g).IsLocal := by
  refine IsLocalAtToken.of_consumes (isLocalAtToken_peek_bind fun t => ?_)
    (consumes_operandStep hg.keeps)
  split
  · exact isLocalAtToken_controlWord hg
  · exact isLocalAtToken_signed hg
  · exact isLocalAtToken_name hg
  · exact isLocalAtToken_number
  · exact isLocalAtToken_parenthesized hg
  · exact (isLocal_fail _ _).atToken
  · exact (isLocal_fail _ _).atToken
  · exact (isLocal_fail _ _).atToken

/-! ### Expressions -/

omit hg in
theorem isLocalAtToken_operatorToken : operatorToken.IsLocalAtToken := by
  refine isLocalAtToken_peek_bind fun t => ?_
  split
  · have read : (next >>= fun token => (pure token : Parser Token)).IsLocalAtToken :=
      isLocalAtToken_next_bind fun _ => isLocal_pure _
    rwa [bind_pure] at read
  · exact (isLocal_pure _).atToken

theorem isLocal_rightOperand (op : Operator) (rhs : Expr) : (rightOperand g op rhs).IsLocal := by
  refine isLocal_peek_bind (b := rhs) (fun t => ?_) fun t ended => ?_
  · exact isLocalAtToken_ite (hg.operators _ _).atToken (isLocal_pure _).atToken
  · rw [bindsTighter, ended]
    rfl

/-- A chain of operators is local: what breaks off is no operator. -/
theorem isLocal_operatorsStep (lhs : Expr) (least : Nat) :
    (operatorsStep g lhs least).IsLocal := by
  refine isLocal_peek_bind (b := lhs) (fun t => ?_) fun t ended => ?_
  · split
    · exact (isLocal_pure _).atToken
    · exact isLocalAtToken_ite (isLocal_pure _).atToken <|
        isLocalAtToken_operatorToken.bind fun _ => (isLocal_operandStep hg).bind fun _ =>
          isLocal_ite (isLocal_pure _) <| (isLocal_rightOperand hg _ _).bind fun _ =>
            hg.operators _ _
  · rw [ended]

/-- An expression is local. -/
theorem isLocal_expressionStep : (expressionStep g).IsLocal :=
  (isLocal_operandStep hg).bind fun _ =>
    isLocal_ite (isLocal_pure _) (isLocal_operatorsStep hg _ _)

/-! ### Lists of expressions -/

theorem isLocal_argumentsStep : (argumentsStep g).IsLocal := by
  refine (isLocal_expressionStep hg).bind fun _ => isLocal_next_bind (fun t => ?_) fun t ended => ?_
  · split
    · exact isLocal_pure _
    · exact hg.arguments.bind fun _ => isLocal_pure _
    · exact isLocal_fail _ _
    · exact isLocal_fail _ _
  · rw [ended]
    exact fails_fail _ _

theorem consumes_argumentsStep : (argumentsStep g).Consumes := by
  have hk := hg.keeps
  refine consumes_bind (consumes_expressionStep hk) fun _ => keeps_bind keeps_next fun _ => ?_
  split
  · exact keeps_done _
  · exact keeps_bind hk.arguments fun _ => keeps_done _
  · exact keeps_fail _ _
  · exact keeps_fail _ _

theorem isLocal_itemsStep (commas : Bool) : (itemsStep g commas).IsLocal := by
  have hk := hg.keeps
  refine isLocal_skipEnds_bind (IsLocalAtToken.of_consumes ?_ ?taken) ?taken
  · exact isLocalAtToken_peek_bind fun _ =>
      isLocalAtToken_ite (isLocalAtToken_next_bind fun _ => isLocal_pure _) <|
        isLocalAtToken_ite (isLocal_fail _ _).atToken <|
          isLocalAtToken_ite (isLocalAtToken_next_bind fun _ => hg.items _) <|
            IsLocal.atToken <| (isLocal_expressionStep hg).bind fun _ =>
              (hg.items _).bind fun _ => isLocal_pure _
  · refine consumes_of_takes (takes_peek_bind fun _ => ?_) fun _ _ _ _ => nofun
    exact takes_ite (takes_next_bind fun _ => keeps_done _) <| takes_ite (takes_fail _ _) <|
      takes_ite (takes_next_bind fun _ => hk.items _) <| Consumes.takes <|
        consumes_bind (consumes_expressionStep hk) fun _ =>
          keeps_bind (hk.items _) fun _ => keeps_done _

omit hg in
theorem isLocalAtToken_closing (name : String) : (closing name).IsLocalAtToken :=
  isLocalAtToken_next_bind fun _ => isLocal_texts.bind fun _ =>
    isLocal_ite (isLocal_pure _) (isLocal_fail _ _)

theorem isLocal_statementsStep (opening : Token) (name : String) :
    (statementsStep g opening name).IsLocal := by
  have hk := hg.keeps
  refine isLocal_skipEnds_bind (IsLocalAtToken.of_consumes ?_ ?taken) ?taken
  · exact isLocalAtToken_peek_bind fun _ =>
      isLocalAtToken_ite (isLocalAtToken_closing name) <|
        isLocalAtToken_ite (isLocal_fail _ _).atToken <|
          IsLocal.atToken <| (isLocal_expressionStep hg).bind fun _ =>
            (hg.statements _ _).bind fun _ => isLocal_pure _
  · have closed : (closing name).Takes := takes_next_bind fun _ =>
      keeps_bind keeps_texts fun _ => keeps_ite (keeps_done _) (keeps_fail _ _)
    refine consumes_of_takes (takes_peek_bind fun _ => ?_) fun _ _ _ _ => nofun
    exact takes_ite closed <| takes_ite (takes_fail _ _) <| Consumes.takes <|
      consumes_bind (consumes_expressionStep hk) fun _ =>
        keeps_bind (hk.statements _ _) fun _ => keeps_done _

/-- One more level is local. -/
theorem isLocal_step : (step g).IsLocal where
  operand := isLocal_operandStep hg
  expression := isLocal_expressionStep hg
  operators := isLocal_operatorsStep hg
  subscripts := isLocal_subscriptsStep hg
  arguments := isLocal_argumentsStep hg
  consumes_arguments := consumes_argumentsStep hg
  items := isLocal_itemsStep hg
  groups := isLocal_groupsStep hg
  parameters := isLocal_parametersStep hg
  statements := isLocal_statementsStep hg

end

theorem isLocal_none : none.IsLocal where
  operand := isLocal_exhausted
  expression := isLocal_exhausted
  operators _ _ := isLocal_exhausted
  subscripts := isLocal_exhausted
  arguments := isLocal_exhausted
  consumes_arguments _ _ _ _ := nofun
  items _ := isLocal_exhausted
  groups := isLocal_exhausted
  parameters := isLocal_exhausted
  statements _ _ := isLocal_exhausted

/-- All levels are local. -/
theorem isLocal_ofDepth (depth : Nat) : (ofDepth depth).IsLocal := by
  induction depth with
  | zero => exact isLocal_none
  | succ depth ih => exact isLocal_step ih

end Grammar

/-- Whether some tokens of a text are an expression can be told from these tokens. -/
theorem Parser.isLocal_expression : expression.IsLocal := by
  refine ⟨keeps_expression, fun ts context us more fs fs' e breaks => ?_⟩
  -- the depth that the longer text needs is enough for both
  have deep : ts.length < (ts ++ more).length + 1 := by
    rw [List.length_append]
    omega
  rw [expression_eq_ofDepth context (k := ⟨ts, fs⟩) deep]
  exact (Grammar.isLocal_ofDepth _).expression.localAt ts context us more fs fs' e breaks

end TexAlgebra
