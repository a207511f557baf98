import Mathlib.Data.List.Forall2
import TexAlgebra.Parser.Grammar
/-!
# Nodes and the tokens that spell them

The numbers and names of a text, and its operators, are what an expression is spelled with. All of
them count except those in the groups behind the two control words of a list, which are kept as text
(`outsideTexts`). `Expr.walk` lists the nodes of an expression that are spelled so, from left to
right, and `Expr.Spelled` relates such a list to the tokens: every token belongs to one node, in
order, and only the nodes that no sign in the text stands for, products by juxtaposition and
fractions, have no token there.
-/

namespace TexAlgebra

/-! ## Tokens outside of texts -/

namespace TokenKind

/-- Whether tokens of the kind are numbers or names. -/
def isAtom : TokenKind → Bool
  | .number | .identifier => true
  | _ => false

/-- Whether tokens of the kind are operators. -/
def isOperator : TokenKind → Bool
  | .operator _ => true
  | _ => false

/-- Whether tokens of the kind spell nodes. -/
def isSpoken (kind : TokenKind) : Bool := kind.isAtom || kind.isOperator

/-- Whether tokens of the kind neither spell a node nor begin anything with groups. -/
def isSilent : TokenKind → Bool
  | .number | .identifier | .operator _ | .controlWord => false
  | _ => true

end TokenKind

namespace Token

/-- Whether the groups behind the token are kept as text. -/
def opensTexts (t : Token) : Bool :=
  t.kind = .controlWord ∧ (t.text = "\\begin" ∨ t.text = "\\end")

/-- Whether the token is a number or a name. -/
def isAtom (t : Token) : Bool := t.kind.isAtom

/-- Whether the token is an operator. -/
def isOperator (t : Token) : Bool := t.kind.isOperator

/-- Whether the token is one that spells a node. -/
def isSpoken (t : Token) : Bool := t.kind.isSpoken

/-- It depends on the kind of a token whether it is spoken. -/
theorem isSpoken_of_kind {t : Token} {kind : TokenKind} (same : t.kind = kind)
    (h : kind.isSpoken = true) : t.isSpoken = true := by
  rw [isSpoken, same, h]

/-- Atoms are spoken. -/
theorem isAtom_and_isSpoken (t : Token) : (t.isAtom && t.isSpoken) = t.isAtom := by
  show (t.kind.isAtom && (t.kind.isAtom || t.kind.isOperator)) = t.kind.isAtom
  cases t.kind.isAtom <;> rfl

/-- Operators are spoken. -/
theorem isOperator_and_isSpoken (t : Token) : (t.isOperator && t.isSpoken) = t.isOperator := by
  show (t.kind.isOperator && (t.kind.isAtom || t.kind.isOperator)) = t.kind.isOperator
  cases t.kind.isOperator <;> simp

end Token

/-- Where a token stands, as far as groups kept as text go. -/
inductive Place where
  | plain
  /-- Behind a control word whose groups are kept as text, or behind such a group. -/
  | behind
  /-- In a group that is kept as text. -/
  | inside

/-- The place behind a token outside of texts. -/
def Place.after (t : Token) : Place := if t.opensTexts then .behind else .plain

/-- The tokens outside of the groups that are kept as text. -/
def outsideTexts : Place → List Token → List Token
  | _, [] => []
  | .plain, t :: ts => t :: outsideTexts (.after t) ts
  | .behind, t :: ts =>
    if t.kind = .braceOpen then outsideTexts .inside ts else t :: outsideTexts (.after t) ts
  | .inside, t :: ts => outsideTexts (if t.kind = .braceClose then .behind else .inside) ts

/-- The tokens of a text that spell nodes. -/
def spoken (place : Place) (ts : List Token) : List Token :=
  (outsideTexts place ts).filter Token.isSpoken

/-- What a single token spells. -/
def Token.spoken (t : Token) : List Token := if t.isSpoken then [t] else []

@[simp] theorem spoken_nil (place : Place) : spoken place [] = [] := by
  rw [spoken, outsideTexts]
  rfl

/-- Outside of texts the first token comes first. -/
theorem spoken_cons (t : Token) (ts : List Token) :
    spoken .plain (t :: ts) = t.spoken ++ spoken (.after t) ts := by
  rw [spoken, outsideTexts, Token.spoken, spoken]
  by_cases h : t.isSpoken
  · rw [List.filter_cons_of_pos h, if_pos h]
    rfl
  · rw [List.filter_cons_of_neg h, if_neg h]
    rfl

/-- Behind a control word, too, a token that opens no group stands outside. -/
theorem spoken_behind_cons {t : Token} (h : t.kind ≠ .braceOpen) (ts : List Token) :
    spoken .behind (t :: ts) = spoken .plain (t :: ts) := by
  rw [spoken, outsideTexts, if_neg h, spoken, outsideTexts]

/-- Only control words open texts. -/
theorem Token.kind_of_opensTexts {t : Token} (h : t.opensTexts = true) :
    t.kind = .controlWord := by
  simp only [Token.opensTexts, decide_eq_true_eq] at h
  exact h.1

/-- What opens texts is followed by them. -/
theorem Place.after_of_opensTexts {t : Token} (h : t.opensTexts = true) : Place.after t = .behind :=
  if_pos h

/-- What opens texts is not spoken itself. -/
theorem Token.spoken_of_opensTexts {t : Token} (h : t.opensTexts = true) : t.spoken = [] := by
  refine if_neg ?_
  rw [isSpoken, kind_of_opensTexts h]
  nofun

/-- Behind anything but a control word tokens are plain. -/
theorem Place.after_of_kind {t : Token} {kind : TokenKind} (same : t.kind = kind)
    (other : kind ≠ .controlWord) : Place.after t = .plain :=
  if_neg fun opens => other (same.symm.trans (Token.kind_of_opensTexts opens))

/-- A spoken token is spoken alone. -/
theorem Token.spoken_of_isSpoken {t : Token} (h : t.isSpoken = true) : t.spoken = [t] := if_pos h

/-- Behind a spoken token tokens are plain. -/
theorem Place.after_of_isSpoken {t : Token} (h : t.isSpoken = true) : Place.after t = .plain := by
  refine after_of_kind rfl fun word => ?_
  rw [Token.isSpoken, word] at h
  cases h

/-- Whether a token spells nothing and opens no texts. -/
structure Token.IsSilent (t : Token) : Prop where
  spoken : t.spoken = []
  after : Place.after t = .plain

/-- It depends on the kind of a token whether it is silent. -/
theorem Token.isSilent_of_kind {t : Token} {kind : TokenKind} (same : t.kind = kind)
    (h : kind.isSilent = true) : t.IsSilent where
  spoken := by
    refine if_neg ?_
    rw [isSpoken, same]
    cases kind <;> first | exact Bool.false_ne_true | cases h
  after := by
    refine Place.after_of_kind same ?_
    rintro rfl
    cases h

/-- A control word is silent unless its groups are kept as text. -/
theorem Token.isSilent_of_controlWord {t : Token} (word : t.kind = .controlWord)
    (begins : t.text ≠ "\\begin") (ends : t.text ≠ "\\end") : t.IsSilent where
  spoken := by
    refine if_neg ?_
    rw [isSpoken, word]
    exact Bool.false_ne_true
  after := if_neg (by simp [opensTexts, begins, ends])

/-- A silent token is left out. -/
theorem Token.IsSilent.spoken_cons {t : Token} (h : t.IsSilent) (ts : List Token) :
    TexAlgebra.spoken .plain (t :: ts) = TexAlgebra.spoken .plain ts := by
  rw [TexAlgebra.spoken_cons, h.spoken, h.after]
  rfl

/-- Ends of statements spell nothing. -/
theorem spoken_dropWhile (ts : List Token) :
    spoken .plain (ts.dropWhile (·.kind = .endOfStatement)) = spoken .plain ts := by
  induction ts with
  | nil => rfl
  | cons t ts ih =>
    by_cases h : t.kind = .endOfStatement
    · rw [List.dropWhile_cons_of_pos (by simpa using h), ih,
        (Token.isSilent_of_kind h rfl).spoken_cons]
    · rw [List.dropWhile_cons_of_neg (by simpa using h)]

/-- The rest of a text that starts inside a group begins behind its first closing brace. -/
theorem spoken_inside (ts : List Token) :
    spoken .inside ts =
      spoken .behind ((ts.drop (ts.takeWhile (·.kind ≠ .braceClose)).length).drop 1) := by
  induction ts with
  | nil => simp
  | cons t ts ih =>
    rw [spoken, outsideTexts, ← spoken]
    by_cases h : t.kind = .braceClose
    · rw [if_pos h, List.takeWhile_cons_of_neg (by simpa using h)]
      rfl
    · rw [if_neg h, List.takeWhile_cons_of_pos (by simpa using h), ih]
      rfl

/-! ## Nodes -/

namespace Expr

mutual

/-- The numbers, variables and operations of an expression, from left to right. A variable stands
before its subscripts, and an operator of two operands between them. -/
def walk : Expr → List Expr
  | number text t => [number text t]
  | var name subscripts t => var name subscripts t :: walkAll subscripts
  | unary op operand t => unary op operand t :: walk operand
  | binary op lhs rhs t => walk lhs ++ binary op lhs rhs t :: walk rhs
  | group items _ => walkAll items
  | command _ arguments _ => walkAll arguments
  | block _ _ statements _ => walkAll statements
  | prototype name parameters _ => walk name ++ walkAll parameters
  | function _ name parameters _ body _ _ => walk name ++ walkAll parameters ++ walk body
  | call callee arguments _ => walk callee ++ walkAll arguments
  | binding target value _ => walk target ++ walk value

/-- Those of several expressions, one after the other. -/
def walkAll : List Expr → List Expr
  | [] => []
  | e :: es => walk e ++ walkAll es

end

/-- Whether the node is a number or a variable. -/
def isAtom (e : Expr) : Bool := e.isNumber || e.isVariable

/-- Lists are walked one after the other. -/
theorem walkAll_append (es fs : List Expr) : walkAll (es ++ fs) = walkAll es ++ walkAll fs := by
  induction es with
  | nil => rfl
  | cons e es ih => rw [List.cons_append, walkAll, walkAll, ih, List.append_assoc]

theorem walkAll_singleton (e : Expr) : walkAll [e] = e.walk := by
  rw [walkAll, walkAll, List.append_nil]

/-- What a group holds alone is walked like the group. -/
theorem walk_unwrap {e item : Expr} (h : e.unwrap? = some item) : item.walk = e.walk := by
  unfold unwrap? at h
  split at h
  · cases h
  · cases h
    rw [walk, walkAll_singleton]
  · cases h
    rfl

/-- Whether a node has just the name, the numeral or the operator of a token, and that token. -/
def IsReadFrom (e : Expr) (t : Token) : Prop :=
  e.token = some t ∧
    match e with
    | number text _ => t.kind = .number ∧ text = t.text
    | var name _ _ => t.kind = .identifier ∧ name = t.text
    | unary op _ _ => t.kind = .operator op
    | binary op _ _ _ => t.kind = .operator op
    | _ => False

/-- Whether a node is an operation that no sign in a text stands for: a fraction or a product by
juxtaposition. -/
inductive IsImplied : Expr → Prop
  | fraction {a b : Expr} {t : Token} (word : t.kind = .controlWord) :
    IsImplied (.binary .divide a b (some t))
  | product (a b : Expr) (t : Token) : IsImplied (.binary .juxtaposed a b (some t.impliedProduct))

/-- Whether the nodes are spelled by the tokens, one after the other. -/
inductive Spelled : List Expr → List Token → Prop
  | nil : Spelled [] []
  | token {e : Expr} {es : List Expr} {t : Token} {ts : List Token} (read : e.IsReadFrom t)
      (rest : Spelled es ts) : Spelled (e :: es) (t :: ts)
  | implied {e : Expr} {es : List Expr} {ts : List Token} (implied : e.IsImplied)
      (rest : Spelled es ts) : Spelled (e :: es) ts

namespace Spelled

variable {e : Expr} {es fs : List Expr} {t : Token} {ts us : List Token}

/-- Two lists are spelled one after the other. -/
theorem append (h : Spelled es ts) (h' : Spelled fs us) : Spelled (es ++ fs) (ts ++ us) := by
  induction h with
  | nil => exact h'
  | token read _ ih => exact .token read ih
  | implied implied _ ih => exact .implied implied ih

/-- What two lists spell together can be cut between them. -/
theorem exists_of_append (h : Spelled (es ++ fs) ts) :
    ∃ us vs, ts = us ++ vs ∧ Spelled es us ∧ Spelled fs vs := by
  induction es generalizing ts with
  | nil => exact ⟨[], ts, rfl, .nil, h⟩
  | cons e es ih =>
    cases h with
    | token read rest =>
      obtain ⟨us, vs, rfl, first, second⟩ := ih rest
      exact ⟨_ :: us, vs, rfl, .token read first, second⟩
    | implied implied rest =>
      obtain ⟨us, vs, rfl, first, second⟩ := ih rest
      exact ⟨us, vs, rfl, .implied implied first, second⟩

/-! ### What is lost and what is kept -/

/-- What was read from an atom is one. -/
theorem isAtom_of_isReadFrom (h : e.IsReadFrom t) : e.isAtom = t.isAtom := by
  obtain ⟨-, h⟩ := h
  cases e <;> simp_all [isAtom, isNumber, isVariable, Token.isAtom, TokenKind.isAtom]

/-- What was read from an operator is an operation. -/
theorem isOperation_of_isReadFrom (h : e.IsReadFrom t) : e.isOperation = t.isOperator := by
  obtain ⟨-, h⟩ := h
  cases e <;> simp_all [isOperation, Token.isOperator, TokenKind.isOperator]

/-- The numbers and variables are the numbers and names, in order. -/
theorem atoms (h : Spelled es ts) :
    List.Forall₂ IsReadFrom (es.filter isAtom) (ts.filter Token.isAtom) := by
  induction h with
  | nil => exact .nil
  | @token e es t ts read _ ih =>
    have same := isAtom_of_isReadFrom read
    by_cases atom : t.isAtom
    · rw [List.filter_cons_of_pos (same ▸ atom), List.filter_cons_of_pos atom]
      exact .cons read ih
    · rw [List.filter_cons_of_neg (same ▸ atom), List.filter_cons_of_neg atom]
      exact ih
  | implied implied _ ih =>
    cases implied <;> exact ih

/-- The operations that no sign stands for aside, the operations are the operators. -/
theorem operations (h : Spelled es ts) :
    ∃ stated implied, (es.filter isOperation).Perm (stated ++ implied) ∧
      List.Forall₂ IsReadFrom stated (ts.filter Token.isOperator) ∧
        ∀ e ∈ implied, IsImplied e := by
  induction h with
  | nil => exact ⟨[], [], .refl _, .nil, by simp⟩
  | @token e es t ts read _ ih =>
    obtain ⟨stated, implied, perm, related, all⟩ := ih
    have same := isOperation_of_isReadFrom read
    by_cases operator : t.isOperator
    · rw [List.filter_cons_of_pos (same ▸ operator), List.filter_cons_of_pos operator]
      exact ⟨e :: stated, implied, perm.cons e, .cons read related, all⟩
    · rw [List.filter_cons_of_neg (same ▸ operator), List.filter_cons_of_neg operator]
      exact ⟨stated, implied, perm, related, all⟩
  | @implied e es ts silent _ ih =>
    obtain ⟨stated, implied, perm, related, all⟩ := ih
    have operation : e.isOperation := by cases silent <;> rfl
    refine ⟨stated, e :: implied, ?_, related, List.forall_mem_cons.2 ⟨silent, all⟩⟩
    rw [List.filter_cons_of_pos operation]
    exact (perm.cons e).trans List.perm_middle.symm

/-- An implied product has no operator for a token. -/
theorem token_ne_of_isImplied (h : e.IsImplied) {op : Operator} (kind : t.kind = .operator op)
    (signed : op ≠ .juxtaposed) : e.token ≠ some t := by
  cases h with
  | fraction word =>
    rintro ⟨⟩
    cases kind.symm.trans word
  | product a b u =>
    rintro ⟨⟩
    cases kind
    exact signed rfl

/-- An operator is the token of as many operations as it stands in the text. -/
theorem count_operations (h : Spelled es ts) {op : Operator} (kind : t.kind = .operator op)
    (signed : op ≠ .juxtaposed) :
    (es.filter isOperation).countP (·.token = some t) = ts.count t := by
  induction h with
  | nil => rfl
  | @token e es u ts read _ ih =>
    have same := isOperation_of_isReadFrom read
    by_cases here : u = t
    · subst here
      have operator : u.isOperator := by rw [Token.isOperator, kind]; rfl
      rw [List.filter_cons_of_pos (same ▸ operator), List.countP_cons_of_pos (by simp [read.1]), ih,
        List.count_cons_self]
    · have other : e.token ≠ some t := fun h => here (Option.some.inj (read.1.symm.trans h))
      rw [List.count_cons_of_ne here, List.filter_cons]
      split
      · rw [List.countP_cons_of_neg (by simpa using other), ih]
      · exact ih
  | implied silent _ ih =>
    have other := token_ne_of_isImplied silent kind signed
    rw [List.filter_cons]
    split
    · rw [List.countP_cons_of_neg (by simpa using other), ih]
    · exact ih

end Spelled

end Expr

end TexAlgebra
