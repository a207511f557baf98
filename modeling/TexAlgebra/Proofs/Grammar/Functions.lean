import TexAlgebra.Proofs.Grammar.Fixpoint
/-!
# Functions in what is read

While an expression is read, the names of functions are noted. They are the names of the functions
that the expression defines somewhere, `Expr.functionNames`, and the names that it binds to one
(`Parser.mem_of_expression`). So what a text has noted can be told from what was read.

A parser collects names in this sense if whatever is noted at its end was noted at its start or
belongs to its result. The proof goes through the grammar once: where a production passes on the
results of its parts, it passes on their names.
-/

namespace TexAlgebra

/-! ## Functions in expressions -/

namespace Expr

mutual

/-- The names of the functions that an expression defines, and those that it binds to a function
written out there. Subscripts, parameters, callees, targets and the bodies of functions are not
visited when the expression is evaluated; what they define counts if `hidden`. -/
def functionNames (hidden : Bool) : Expr → List Expr
  | number _ _ => []
  | var _ subscripts _ => if hidden then functionNamesOfAll hidden subscripts else []
  | unary _ operand _ => functionNames hidden operand
  | binary _ lhs rhs _ => functionNames hidden lhs ++ functionNames hidden rhs
  | group items _ => functionNamesOfAll hidden items
  | command _ arguments _ => functionNamesOfAll hidden arguments
  | block _ _ statements _ => functionNamesOfAll hidden statements
  | prototype name parameters _ =>
    if hidden then functionNames hidden name ++ functionNamesOfAll hidden parameters else []
  | function _ name parameters _ body _ _ =>
    name :: if hidden then
      functionNames hidden name ++ functionNamesOfAll hidden parameters ++ functionNames hidden body
    else []
  | call callee arguments _ =>
    (if hidden then functionNames hidden callee else []) ++ functionNamesOfAll hidden arguments
  | binding target value _ =>
    (if hidden then functionNames hidden target else []) ++ functionNames hidden value ++
      if value.isFunction then [target] else []

/-- The names of the functions that several expressions define. -/
def functionNamesOfAll (hidden : Bool) : List Expr → List Expr
  | [] => []
  | e :: es => functionNames hidden e ++ functionNamesOfAll hidden es

end

/-- The functions of two lists are those of both. -/
theorem functionNamesOfAll_append (hidden : Bool) (es es' : List Expr) :
    functionNamesOfAll hidden (es ++ es') =
      functionNamesOfAll hidden es ++ functionNamesOfAll hidden es' := by
  induction es with
  | nil => rfl
  | cons e es ih => rw [List.cons_append, functionNamesOfAll, functionNamesOfAll, ih,
      List.append_assoc]

/-- A group of one defines what its item defines. -/
theorem functionNames_unwrap {hidden : Bool} {e item : Expr} (h : e.unwrap? = some item) :
    functionNames hidden e = functionNames hidden item := by
  unfold unwrap? at h
  split at h
  · cases h
  · cases h
    rw [functionNames, functionNamesOfAll, functionNamesOfAll, List.append_nil]
  · cases h
    rfl

end Expr

/-! ## Parsers that collect names -/

open Expr (functionNames functionNamesOfAll)

namespace Parser

variable {α β : Type} {A B : Expr → Prop} {Q : α → Expr → Prop} {R : β → Expr → Prop}

/-- Whether all that is noted after a parser has the property that goes with the result, if all that
was noted before has the property `A`. -/
def Collects (A : Expr → Prop) (p : Parser α) (Q : α → Expr → Prop) : Prop :=
  ∀ context k a k', p context k = .done a k' →
    (∀ n ∈ k.functions, A n) → ∀ n ∈ k'.functions, Q a n

/-- Whether a parser notes nothing. -/
def IsSilent (p : Parser α) : Prop :=
  ∀ context k a k', p context k = .done a k' → k'.functions = k.functions

/-- Whether a parser notes nothing but some names that go with its result. -/
abbrev Adds (p : Parser α) (names : α → List Expr) : Prop :=
  ∀ A, p.Collects A fun a n => A n ∨ n ∈ names a

/-! ## Combination -/

variable {p : Parser α} {f : α → Parser β}

theorem collects_pure {a : α} (h : ∀ n, A n → Q a n) : (pure a : Parser α).Collects A Q := by
  rintro context k _ _ ⟨⟩ before n mem
  exact h n (before n mem)

/-- A fault has no result from which names could be missing. -/
theorem collects_fail {cause : ParseCause} {token : Token} :
    (fail cause token : Parser α).Collects A Q :=
  fun _ _ _ _ h => nomatch h

theorem collects_exhausted : (exhausted : Parser α).Collects A Q := fun _ _ _ _ h => nomatch h

theorem collects_ite {p q : Parser α} {c : Prop} [Decidable c] (hp : p.Collects A Q)
    (hq : q.Collects A Q) : (if c then p else q).Collects A Q := by
  split
  · exact hp
  · exact hq

/-- A sequence collects what its last step does, from what the first one collected. -/
theorem Collects.bind (hp : p.Collects A Q) (hf : ∀ a, (f a).Collects (Q a) R) :
    (p >>= f).Collects A R := by
  intro context k b k' h before
  obtain ⟨a, m, first, second⟩ := done_of_bind h
  exact hf a context m b k' second (hp context k a m first before)

/-- Names may be collected from fewer and into more. -/
theorem Collects.mono {Q' : α → Expr → Prop} (hp : p.Collects B Q) (pre : ∀ n, A n → B n)
    (post : ∀ a n, Q a n → Q' a n) : p.Collects A Q' :=
  fun context k a k' h before n mem =>
    post a n (hp context k a k' h (fun n mem => pre n (before n mem)) n mem)

/-- What notes no name comes before what collects some. -/
theorem IsSilent.then (hp : p.IsSilent) (hf : ∀ a, (f a).Collects A R) :
    (p >>= f).Collects A R := by
  intro context k b k' h before
  obtain ⟨a, m, first, second⟩ := done_of_bind h
  exact hf a context m b k' second (hp context k a m first ▸ before)

theorem isSilent_pure {a : α} : (pure a : Parser α).IsSilent := by
  rintro context k _ _ ⟨⟩
  rfl

theorem isSilent_fail {cause : ParseCause} {token : Token} :
    (fail cause token : Parser α).IsSilent :=
  fun _ _ _ _ h => nomatch h

/-- Two steps that note no name note none together. -/
theorem IsSilent.bind (hp : p.IsSilent) (hf : ∀ a, (f a).IsSilent) : (p >>= f).IsSilent := by
  intro context k b k' h
  obtain ⟨a, m, first, second⟩ := done_of_bind h
  rw [hf a context m b k' second, hp context k a m first]

/-! ## Single tokens -/

theorem isSilent_peek : peek.IsSilent := by
  rintro context k _ _ ⟨⟩
  rfl

theorem isSilent_next : next.IsSilent := by
  rintro context k _ _ ⟨⟩
  rfl

theorem isSilent_sees (kind : TokenKind) : (sees kind).IsSilent := by
  rintro context k _ _ ⟨⟩
  rfl

theorem isSilent_skipEnds : skipEnds.IsSilent := by
  rintro context k _ _ ⟨⟩
  rfl

theorem isSilent_isFunction (x : Expr) : (isFunction x).IsSilent := by
  rintro context k _ _ ⟨⟩
  rfl

theorem isSilent_expect (kind : TokenKind) (character : String) :
    (expect kind character).IsSilent := by
  refine isSilent_next.bind fun token => ?_
  split
  · exact isSilent_fail
  split
  · exact isSilent_pure
  · exact isSilent_fail

/-- To note a name adds it. -/
theorem collects_define (name : Expr) :
    (define name).Collects A fun _ n => A n ∨ n = name := by
  rintro context k _ _ ⟨⟩ before n mem
  exact (List.mem_append.1 mem).imp (before n) List.mem_singleton.1

end Parser

namespace Grammar

open TexAlgebra.Parser

/-- Whether every parser of the grammar notes the names of functions in its result and no others. -/
structure IsFaithful (g : Grammar) : Prop where
  operand : g.operand.Adds (functionNames true)
  expression : g.expression.Adds (functionNames true)
  /-- The names of the left operand are noted before. -/
  operators : ∀ (A : Expr → Prop) lhs least, (g.operators lhs least).Collects
    (fun n => A n ∨ n ∈ functionNames true lhs) fun e n => A n ∨ n ∈ functionNames true e
  subscripts : g.subscripts.Adds (functionNamesOfAll true)
  arguments : g.arguments.Adds (functionNamesOfAll true)
  items : ∀ commas, (g.items commas).Adds (functionNamesOfAll true)
  groups : g.groups.Adds (functionNamesOfAll true)
  parameters : g.parameters.Adds (functionNamesOfAll true)
  statements : ∀ opening name, (g.statements opening name).Adds (functionNamesOfAll true)

/-- Groups kept as text note no name. -/
theorem isSilent_texts : texts.IsSilent := by
  intro context k names k' h
  unfold texts at h
  split at h
  · cases h
    rfl
  · cases h

section

variable {A : Expr → Prop} {n : Expr}

/-- A name in one of several expressions is a name in them all. -/
theorem or_mem_cons {e : Expr} {es : List Expr}
    (h : (A n ∨ n ∈ functionNames true e) ∨ n ∈ functionNamesOfAll true es) :
    A n ∨ n ∈ functionNamesOfAll true (e :: es) := by
  rw [functionNamesOfAll, List.mem_append]
  exact or_assoc.1 h

theorem or_mem_binary {op : Operator} {lhs rhs : Expr} {token : Option Token}
    (h : (A n ∨ n ∈ functionNames true lhs) ∨ n ∈ functionNames true rhs) :
    A n ∨ n ∈ functionNames true (.binary op lhs rhs token) := by
  rw [functionNames, List.mem_append]
  exact or_assoc.1 h

end

section

variable {g : Grammar} (hg : g.IsFaithful)
include hg

/-! ## Names -/

/-- A variable notes the functions in its subscripts. -/
theorem adds_identifier : (identifier g).Adds (functionNames true) :=
  fun A => isSilent_next.then fun _ => (hg.subscripts A).bind fun _ => collects_pure fun _ => id

theorem adds_subscriptsStep : (subscriptsStep g).Adds (functionNamesOfAll true) := by
  refine fun A => (isSilent_sees _).then fun _ => collects_ite (collects_pure fun _ => .inl) ?_
  refine isSilent_next.then fun _ => isSilent_peek.then fun following => ?_
  split
  · refine isSilent_next.then fun _ => (hg.items true A).bind fun items =>
      (hg.subscripts _).bind fun later => collects_pure fun n h => ?_
    rw [Expr.functionNamesOfAll_append, List.mem_append]
    exact or_assoc.1 h
  · exact isSilent_next.then fun _ => (hg.subscripts A).bind fun _ => collects_pure fun _ => id
  · exact isSilent_next.then fun _ => (hg.subscripts A).bind fun _ => collects_pure fun _ => id
  · exact collects_fail
  · exact collects_fail

/-! ## Groups -/

theorem adds_braced (commas : Bool) : (braced g commas).Adds (functionNames true) :=
  fun A => (isSilent_expect _ _).then fun _ => (hg.items commas A).bind fun _ =>
    collects_pure fun _ => id

theorem adds_groupsStep : (groupsStep g).Adds (functionNamesOfAll true) :=
  fun A => (isSilent_sees _).then fun _ => collects_ite (collects_pure fun _ => .inl) <|
    isSilent_next.then fun _ => (hg.items false A).bind fun _ => (hg.groups _).bind fun _ =>
      collects_pure fun _ => or_mem_cons (e := .group _ _)

/-! ## Control words -/

omit hg in
/-- The names in two groups are those of what the groups hold. -/
theorem mem_of_unwrap {a b lhs rhs n : Expr} (first : a.unwrap? = some lhs)
    (second : b.unwrap? = some rhs) (mem : n ∈ functionNamesOfAll true [a, b]) :
    n ∈ functionNames true lhs ++ functionNames true rhs := by
  rwa [functionNamesOfAll, functionNamesOfAll, functionNamesOfAll, List.append_nil,
    Expr.functionNames_unwrap first, Expr.functionNames_unwrap second] at mem

theorem adds_fraction (token : Token) : (fraction g token).Adds (functionNames true) := by
  refine fun A => (hg.groups A).bind fun groups => ?_
  split
  · split
    · next numerator denominator above below =>
      exact collects_pure fun n => Or.imp_right (mem_of_unwrap above below)
    · exact collects_fail
  · exact collects_fail

/-- A name that is bound to a function is one of those of the binding. -/
theorem adds_binding (token : Token) : (binding g token).Adds (functionNames true) := by
  refine fun A => (hg.groups A).bind fun groups => ?_
  split
  · next a b =>
    split
    · exact collects_fail
    · exact collects_fail
    · next target value bound given =>
      have named := (Option.filter_eq_some_iff.1 bound).1
      refine collects_ite collects_fail (Collects.bind (Q := fun _ n =>
        A n ∨ n ∈ functionNames true (.binding target value (some token))) ?_ fun _ =>
          collects_pure fun _ => id)
      unfold noteFunction
      split
      · next function =>
        refine (collects_define target).mono (fun _ => id) fun _ n h => ?_
        rw [functionNames, if_pos rfl, if_pos function, List.mem_append, List.mem_singleton,
          ← or_assoc]
        exact h.imp_left (Or.imp_right (mem_of_unwrap named given))
      · exact collects_pure fun n => Or.imp_right fun mem =>
          List.mem_append_left _ (mem_of_unwrap named given mem)
  · exact collects_fail

theorem adds_prototype : (prototype g).Adds fun r =>
    functionNames true r.1 ++ functionNamesOfAll true r.2.1 :=
  fun A => isSilent_peek.then fun _ => collects_ite collects_fail <| collects_ite collects_fail <|
    (adds_identifier hg A).bind fun _ => (isSilent_expect _ _).then fun _ =>
      (hg.parameters _).bind fun _ => collects_pure fun n h => by
        rw [List.mem_append]
        exact or_assoc.1 h

theorem adds_parametersStep : (parametersStep g).Adds (functionNamesOfAll true) := by
  refine fun A => (isSilent_sees _).then fun _ => collects_ite ?_ ?_
  · exact (isSilent_expect _ _).then fun _ => collects_pure fun _ => .inl
  · refine (adds_identifier hg A).bind fun parameter => isSilent_next.then fun _ => ?_
    split
    · exact collects_pure fun n h => or_mem_cons (.inl h)
    · exact (hg.parameters _).bind fun _ => collects_pure fun _ => or_mem_cons
    · exact collects_fail

/-- A function notes its own name and those in its head and in its body. -/
theorem adds_function (token : Token) : (function g token).Adds (functionNames true) := by
  refine fun A => (isSilent_expect _ _).then fun _ => (adds_prototype hg A).bind fun r =>
    (isSilent_expect _ _).then fun _ => (collects_define _).bind fun _ =>
      (adds_braced hg false _).bind fun e => ?_
  split
  · next body single =>
    refine collects_ite collects_fail (collects_pure fun n h => ?_)
    rw [Expr.functionNames_unwrap single] at h
    rw [functionNames, if_pos rfl, List.mem_cons, List.mem_append]
    rcases h with ((h | h) | h) | h
    · exact .inl h
    · exact .inr (.inr (.inl h))
    · exact .inr (.inl h)
    · exact .inr (.inr (.inr h))
  · exact collects_fail

theorem adds_block (token : Token) : (block g token).Adds (functionNames true) := by
  refine fun A => isSilent_texts.then fun _ => ?_
  split
  · exact collects_fail
  · exact (hg.statements _ _ A).bind fun _ => collects_pure fun _ => id

/-- A control word notes what is defined by it or in its groups. -/
theorem adds_controlWord : (controlWord g).Adds (functionNames true) := by
  refine fun A => isSilent_peek.then fun token => collects_ite collects_fail <|
    isSilent_next.then fun _ => ?_
  unfold afterControlWord
  split
  · exact adds_block hg _ A
  · exact adds_function hg _ A
  · exact adds_fraction hg _ A
  · exact adds_binding hg _ A
  · exact (hg.groups A).bind fun _ => collects_pure fun _ => id

/-! ## Operands -/

theorem adds_parenthesized : (parenthesized g).Adds (functionNames true) :=
  fun A => isSilent_next.then fun _ => (hg.expression A).bind fun _ =>
    (isSilent_expect _ _).then fun _ => collects_pure fun _ => id

theorem adds_callArguments : (callArguments g).Adds (functionNamesOfAll true) :=
  fun A => (isSilent_expect _ _).then fun _ => (isSilent_sees _).then fun _ =>
    collects_ite (isSilent_next.then fun _ => collects_pure fun _ => .inl) (hg.arguments A)

theorem adds_name : (name g).Adds (functionNames true) := by
  refine fun A => (adds_identifier hg A).bind fun x => (isSilent_sees _).then fun _ =>
    collects_ite (collects_pure fun _ => id) <| (isSilent_isFunction _).then fun _ =>
      collects_ite (collects_pure fun _ => id) <| (adds_callArguments hg _).bind fun _ =>
        collects_pure fun n h => ?_
  rw [functionNames, if_pos rfl, List.mem_append]
  exact or_assoc.1 h

omit hg in
theorem adds_number : number.Adds (functionNames true) :=
  fun _ => isSilent_next.then fun _ => collects_pure fun _ => .inl

theorem adds_signed : (signed g g.operand).Adds (functionNames true) := by
  refine fun A => isSilent_next.then fun _ => ?_
  split
  · refine collects_ite ((hg.operand A).bind fun e => collects_ite (collects_pure fun _ => id) ?_)
      collects_fail
    exact (hg.operators A e _).bind fun _ => collects_pure fun _ => id
  · exact collects_fail

/-- An operand notes the functions in it. -/
theorem adds_operandStep : (operandStep g).Adds (functionNames true) := by
  refine fun A => isSilent_peek.then fun token => ?_
  split
  · exact adds_controlWord hg A
  · exact adds_signed hg A
  · exact adds_name hg A
  · exact adds_number A
  · exact adds_parenthesized hg A
  · exact collects_fail
  · exact collects_fail
  · exact collects_fail

/-! ## Expressions -/

omit hg in
theorem isSilent_operatorToken : operatorToken.IsSilent := by
  refine isSilent_peek.bind fun token => ?_
  split
  · exact isSilent_next
  · exact isSilent_pure

/-- A right operand adds its functions to those on the left. -/
theorem collects_rightOperand (A : Expr → Prop) (op : Operator) (rhs : Expr) :
    (rightOperand g op rhs).Collects (fun n => A n ∨ n ∈ functionNames true rhs)
      fun e n => A n ∨ n ∈ functionNames true e :=
  isSilent_peek.then fun _ => collects_ite (hg.operators A rhs _) (collects_pure fun _ => id)

/-- A chain of operators adds the functions of its operands to those on the left. -/
theorem collects_operatorsStep (A : Expr → Prop) (lhs : Expr) (least : Nat) :
    (operatorsStep g lhs least).Collects (fun n => A n ∨ n ∈ functionNames true lhs)
      fun e n => A n ∨ n ∈ functionNames true e := by
  refine isSilent_peek.then fun token => ?_
  split
  · exact collects_pure fun _ => id
  · next op _ =>
    refine collects_ite (collects_pure fun _ => id) <| isSilent_operatorToken.then fun token =>
      (adds_operandStep hg _).bind fun rhs => collects_ite (collects_pure fun _ => or_mem_binary) <|
        (collects_rightOperand hg _ op rhs).bind fun _ => ?_
    exact (hg.operators A _ least).mono (fun _ => or_mem_binary) fun _ _ => id

/-- An expression notes the functions in it. -/
theorem adds_expressionStep : (expressionStep g).Adds (functionNames true) :=
  fun A => (adds_operandStep hg A).bind fun e =>
    collects_ite (collects_pure fun _ => id) (collects_operatorsStep hg A e _)

/-! ## Lists of expressions -/

theorem adds_argumentsStep : (argumentsStep g).Adds (functionNamesOfAll true) := by
  refine fun A => (adds_expressionStep hg A).bind fun _ => isSilent_next.then fun _ => ?_
  split
  · exact collects_pure fun n h => or_mem_cons (.inl h)
  · exact (hg.arguments _).bind fun _ => collects_pure fun _ => or_mem_cons
  · exact collects_fail
  · exact collects_fail

/-- Items note the functions in them. -/
theorem adds_itemsStep (commas : Bool) : (itemsStep g commas).Adds (functionNamesOfAll true) :=
  fun A => isSilent_skipEnds.then fun _ => isSilent_peek.then fun _ =>
    collects_ite (isSilent_next.then fun _ => collects_pure fun _ => .inl) <|
      collects_ite collects_fail <| collects_ite (isSilent_next.then fun _ => hg.items _ A) <|
        (adds_expressionStep hg A).bind fun _ => (hg.items _ _).bind fun _ =>
          collects_pure fun _ => or_mem_cons

omit hg in
theorem adds_closing (name : String) : (closing name).Adds (functionNamesOfAll true) :=
  fun _ => isSilent_next.then fun _ => isSilent_texts.then fun _ =>
    collects_ite (collects_pure fun _ => .inl) collects_fail

/-- Statements of an environment note the functions in them. -/
theorem adds_statementsStep (opening : Token) (name : String) :
    (statementsStep g opening name).Adds (functionNamesOfAll true) :=
  fun A => isSilent_skipEnds.then fun _ => isSilent_peek.then fun _ =>
    collects_ite (adds_closing _ A) <| collects_ite collects_fail <|
      (adds_expressionStep hg A).bind fun _ => (hg.statements _ _ _).bind fun _ =>
        collects_pure fun _ => or_mem_cons

/-- One more level notes all functions. -/
theorem isFaithful_step : (step g).IsFaithful where
  operand := adds_operandStep hg
  expression := adds_expressionStep hg
  operators := collects_operatorsStep hg
  subscripts := adds_subscriptsStep hg
  arguments := adds_argumentsStep hg
  items := adds_itemsStep hg
  groups := adds_groupsStep hg
  parameters := adds_parametersStep hg
  statements := adds_statementsStep hg

end

theorem isFaithful_none : none.IsFaithful where
  operand _ := collects_exhausted
  expression _ := collects_exhausted
  operators _ _ _ := collects_exhausted
  subscripts _ := collects_exhausted
  arguments _ := collects_exhausted
  items _ _ := collects_exhausted
  groups _ := collects_exhausted
  parameters _ := collects_exhausted
  statements _ _ _ := collects_exhausted

/-- All levels note all functions. -/
theorem isFaithful_ofDepth (depth : Nat) : (ofDepth depth).IsFaithful := by
  induction depth with
  | zero => exact isFaithful_none
  | succ depth ih => exact isFaithful_step ih

end Grammar

/-- What is noted after an expression was noted before it or is the name of a function in it. -/
theorem Parser.mem_of_expression {context : Context} {k k' : Cursor} {e : Expr}
    (h : expression context k = .done e k') {n : Expr} (mem : n ∈ k'.functions) :
    n ∈ k.functions ∨ n ∈ e.functionNames true :=
  (Grammar.isFaithful_ofDepth _).expression (· ∈ k.functions) context k e k' h (fun _ => id) n mem

end TexAlgebra
