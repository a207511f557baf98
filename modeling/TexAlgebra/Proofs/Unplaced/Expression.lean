import TexAlgebra.Proofs.Formula
import TexAlgebra.Expr.Matching
import TexAlgebra.Expr.Printer
/-!
# Expressions without places

Where the tokens of an expression stand in a text matters to its reports alone. `Expr.unplaced`
takes all tokens to one place; whatever is computed of an expression is computed of the expression
without places too: whether it matches another one, how it is written, and what it becomes when its
variables are replaced.
-/

namespace TexAlgebra

/-- The token at the start of a text. -/
def Token.unplaced (t : Token) : Token := { t with position := .start }

@[simp] theorem Token.unplaced_kind (t : Token) : t.unplaced.kind = t.kind := rfl

@[simp] theorem Token.unplaced_text (t : Token) : t.unplaced.text = t.text := rfl

@[simp] theorem Token.unplaced_impliedProduct (t : Token) :
    t.impliedProduct.unplaced = t.unplaced.impliedProduct := rfl

/-- The first of two values is replaced like both. -/
theorem map_orElse {α β : Type} (f : α → β) (a b : Option α) :
    (a <|> b).map f = (a.map f <|> b.map f) := by
  cases a <;> rfl

namespace Expr

/-! ## Taking tokens to one place -/

mutual

/-- The expression with all its tokens at the start of a text. -/
def unplaced : Expr → Expr
  | number text t => number text (t.map Token.unplaced)
  | var name subscripts t => var name (unplacedAll subscripts) (t.map Token.unplaced)
  | unary op operand t => unary op (unplaced operand) (t.map Token.unplaced)
  | binary op lhs rhs t => binary op (unplaced lhs) (unplaced rhs) (t.map Token.unplaced)
  | group items t => group (unplacedAll items) (t.map Token.unplaced)
  | command name arguments t => command name (unplacedAll arguments) (t.map Token.unplaced)
  | block name arguments statements t =>
    block name arguments (unplacedAll statements) (t.map Token.unplaced)
  | prototype name parameters t =>
    prototype (unplaced name) (unplacedAll parameters) (t.map Token.unplaced)
  | function form name parameters head body closed t =>
    function form (unplaced name) (unplacedAll parameters) (head.map Token.unplaced)
      (unplaced body) (unplacedPairs closed) (t.map Token.unplaced)
  | call callee arguments t =>
    call (unplaced callee) (unplacedAll arguments) (t.map Token.unplaced)
  | binding target value t => binding (unplaced target) (unplaced value) (t.map Token.unplaced)

/-- The expressions with all their tokens at the start of a text. -/
def unplacedAll : List Expr → List Expr
  | [] => []
  | e :: es => unplaced e :: unplacedAll es

/-- The pairs with all their tokens at the start of a text. -/
def unplacedPairs : List (Expr × Expr) → List (Expr × Expr)
  | [] => []
  | (a, b) :: rest => (unplaced a, unplaced b) :: unplacedPairs rest

end

/-- The pair with all its tokens at the start of a text. -/
def unplacedPair (b : Expr × Expr) : Expr × Expr := (b.1.unplaced, b.2.unplaced)

/-- A list loses its places expression by expression. -/
theorem unplacedAll_eq (es : List Expr) : unplacedAll es = es.map unplaced := by
  induction es with
  | nil => rfl
  | cons e es ih => rw [unplacedAll, ih, List.map_cons]

/-- A list of pairs loses its places pair by pair. -/
theorem unplacedPairs_eq (bs : List (Expr × Expr)) : unplacedPairs bs = bs.map unplacedPair := by
  induction bs with
  | nil => rfl
  | cons b bs ih =>
    obtain ⟨x, v⟩ := b
    rw [unplacedPairs, ih, List.map_cons, unplacedPair]

section

variable (op : Operator) (name text : String) (e x v : Expr) (es ps : List Expr) (t : Option Token)

@[simp] theorem unplaced_number : (number text t).unplaced = number text (t.map Token.unplaced) :=
  rfl

@[simp] theorem unplaced_var :
    (var name es t).unplaced = var name (es.map unplaced) (t.map Token.unplaced) :=
  congrArg (var name · _) (unplacedAll_eq es)

@[simp] theorem unplaced_unary :
    (unary op e t).unplaced = unary op e.unplaced (t.map Token.unplaced) := rfl

@[simp] theorem unplaced_binary :
    (binary op e x t).unplaced = binary op e.unplaced x.unplaced (t.map Token.unplaced) := rfl

@[simp] theorem unplaced_group :
    (group es t).unplaced = group (es.map unplaced) (t.map Token.unplaced) :=
  congrArg (group · _) (unplacedAll_eq es)

@[simp] theorem unplaced_command :
    (command name es t).unplaced = command name (es.map unplaced) (t.map Token.unplaced) :=
  congrArg (command name · _) (unplacedAll_eq es)

@[simp] theorem unplaced_block (arguments : List String) : (block name arguments es t).unplaced =
    block name arguments (es.map unplaced) (t.map Token.unplaced) :=
  congrArg (block name arguments · _) (unplacedAll_eq es)

@[simp] theorem unplaced_prototype : (prototype e ps t).unplaced =
    prototype e.unplaced (ps.map unplaced) (t.map Token.unplaced) :=
  congrArg (prototype _ · _) (unplacedAll_eq ps)

@[simp] theorem unplaced_function (form : FunctionForm) (head : Option Token)
    (closed : List (Expr × Expr)) : (function form e ps head v closed t).unplaced =
      function form e.unplaced (ps.map unplaced) (head.map Token.unplaced) v.unplaced
        (closed.map unplacedPair) (t.map Token.unplaced) :=
  congrArg₂ (function form _ · _ _ · _) (unplacedAll_eq ps) (unplacedPairs_eq closed)

@[simp] theorem unplaced_call :
    (call e es t).unplaced = call e.unplaced (es.map unplaced) (t.map Token.unplaced) :=
  congrArg (call _ · _) (unplacedAll_eq es)

@[simp] theorem unplaced_binding :
    (binding x v t).unplaced = binding x.unplaced v.unplaced (t.map Token.unplaced) := rfl

/-- An expression without places has its token without a place. -/
@[simp] theorem token_unplaced : e.unplaced.token = e.token.map Token.unplaced := by
  cases e <;> rfl

end

/-- What holds of an expression whenever it holds of its parts holds of every expression. -/
theorem parts_induction {motive : Expr → Prop}
    (number : ∀ text t, motive (.number text t))
    (var : ∀ name subscripts t, (∀ e ∈ subscripts, motive e) → motive (.var name subscripts t))
    (unary : ∀ op operand t, motive operand → motive (.unary op operand t))
    (binary : ∀ op lhs rhs t, motive lhs → motive rhs → motive (.binary op lhs rhs t))
    (group : ∀ items t, (∀ e ∈ items, motive e) → motive (.group items t))
    (command : ∀ name arguments t, (∀ e ∈ arguments, motive e) →
      motive (.command name arguments t))
    (block : ∀ name arguments statements t, (∀ e ∈ statements, motive e) →
      motive (.block name arguments statements t))
    (prototype : ∀ name parameters t, motive name → (∀ e ∈ parameters, motive e) →
      motive (.prototype name parameters t))
    (function : ∀ form name parameters head body closed t, motive name →
      (∀ e ∈ parameters, motive e) → motive body →
      (∀ b ∈ closed, motive b.1 ∧ motive b.2) →
      motive (.function form name parameters head body closed t))
    (call : ∀ callee arguments t, motive callee → (∀ e ∈ arguments, motive e) →
      motive (.call callee arguments t))
    (binding : ∀ target value t, motive target → motive value →
      motive (.binding target value t)) : ∀ e, motive e := by
  intro e
  -- the parts are smaller, however deep in a list they are
  have again (p : Expr) (_ : sizeOf p < sizeOf e) : motive p :=
    parts_induction number var unary binary group command block prototype function call binding p
  have items {es : List Expr} (h : sizeOf es < sizeOf e) : ∀ p ∈ es, motive p := fun p hp =>
    again p (Nat.lt_trans (List.sizeOf_lt_of_mem hp) h)
  cases e with
  | number text t => exact number text t
  | var name subscripts t =>
    exact var name subscripts t (items (by simp only [Expr.var.sizeOf_spec]; omega))
  | unary op operand t =>
    exact unary op operand t (again _ (by simp only [Expr.unary.sizeOf_spec]; omega))
  | binary op lhs rhs t =>
    exact binary op lhs rhs t (again _ (by simp only [Expr.binary.sizeOf_spec]; omega))
      (again _ (by simp only [Expr.binary.sizeOf_spec]; omega))
  | group es t => exact group es t (items (by simp only [Expr.group.sizeOf_spec]; omega))
  | command name arguments t =>
    exact command name arguments t (items (by simp only [Expr.command.sizeOf_spec]; omega))
  | block name arguments statements t =>
    exact block name arguments statements t
      (items (by simp only [Expr.block.sizeOf_spec]; omega))
  | prototype name parameters t =>
    exact prototype name parameters t (again _ (by simp only [Expr.prototype.sizeOf_spec]; omega))
      (items (by simp only [Expr.prototype.sizeOf_spec]; omega))
  | function form name parameters head body closed t =>
    refine function form name parameters head body closed t
      (again _ (by simp only [Expr.function.sizeOf_spec]; omega))
      (items (by simp only [Expr.function.sizeOf_spec]; omega))
      (again _ (by simp only [Expr.function.sizeOf_spec]; omega)) fun b hb => ?_
    have inner := List.sizeOf_lt_of_mem hb
    obtain ⟨x, v⟩ := b
    rw [Prod.mk.sizeOf_spec] at inner
    exact ⟨again _ (by simp only [Expr.function.sizeOf_spec]; omega),
      again _ (by simp only [Expr.function.sizeOf_spec]; omega)⟩
  | call callee arguments t =>
    exact call callee arguments t (again _ (by simp only [Expr.call.sizeOf_spec]; omega))
      (items (by simp only [Expr.call.sizeOf_spec]; omega))
  | binding target value t =>
    exact binding target value t (again _ (by simp only [Expr.binding.sizeOf_spec]; omega))
      (again _ (by simp only [Expr.binding.sizeOf_spec]; omega))
termination_by e => sizeOf e

/-! ## Kinds of expressions -/

@[simp] theorem isNumber_unplaced (e : Expr) : e.unplaced.isNumber = e.isNumber := by
  cases e <;> rfl

@[simp] theorem isVariable_unplaced (e : Expr) : e.unplaced.isVariable = e.isVariable := by
  cases e <;> rfl

@[simp] theorem isGroup_unplaced (e : Expr) : e.unplaced.isGroup = e.isGroup := by
  cases e <;> rfl

@[simp] theorem unwrap?_unplaced (e : Expr) :
    e.unplaced.unwrap? = e.unwrap?.map unplaced := by
  cases e with
  | group items t =>
    rw [unplaced_group]
    match items with
    | [] => rfl
    | [item] => rfl
    | a :: b :: items =>
      rw [List.map_cons, List.map_cons]
      simp only [unwrap?, Option.map_some, unplaced_group, List.map_cons]
  | _ => rfl

end Expr

/-- The function with all its tokens at the start of a text. -/
def Function.unplaced (f : Function) : Function where
  form := f.form
  name := f.name.unplaced
  parameters := f.parameters.map Expr.unplaced
  head := f.head.map Token.unplaced
  body := f.body.unplaced
  closed := f.closed.map Expr.unplacedPair
  token := f.token.map Token.unplaced

@[simp] theorem Function.unplaced_toExpr (f : Function) :
    f.toExpr.unplaced = f.unplaced.toExpr := by
  rw [toExpr, Expr.unplaced_function]
  rfl

@[simp] theorem Function.unplaced_prototype (f : Function) :
    f.prototype.unplaced = f.unplaced.prototype := by
  rw [prototype, Expr.unplaced_prototype]
  rfl

@[simp] theorem Function.unplaced_renamed (f : Function) (name : Expr) :
    (f.renamed name).unplaced = f.unplaced.renamed name.unplaced := rfl

@[simp] theorem Function.arity_unplaced (f : Function) : f.unplaced.arity = f.arity :=
  List.length_map _

namespace Expr

@[simp] theorem function?_unplaced (e : Expr) :
    e.unplaced.function? = e.function?.map Function.unplaced := by
  cases e with
  | function =>
    rw [unplaced_function]
    rfl
  | _ => rfl

@[simp] theorem isFunction_unplaced (e : Expr) : e.unplaced.isFunction = e.isFunction := by
  rw [isFunction, function?_unplaced, Option.isSome_map, isFunction]

/-! ## Comparison -/

/-- Lists are equal without places if they are with them. -/
theorem sameAll_unplaced {as bs : List Expr}
    (h : ∀ a ∈ as, ∀ b, a.unplaced.same b.unplaced = a.same b) :
    sameAll (as.map unplaced) (bs.map unplaced) = sameAll as bs := by
  induction as generalizing bs with
  | nil => cases bs <;> rfl
  | cons a as ih =>
    cases bs with
    | nil => rfl
    | cons b bs =>
      rw [List.map_cons, List.map_cons, sameAll, sameAll, h a List.mem_cons_self,
        ih fun a ha => h a (List.mem_cons_of_mem _ ha)]

theorem samePairs_unplaced {as bs : List (Expr × Expr)}
    (h : ∀ a ∈ as, (∀ b, a.1.unplaced.same b.unplaced = a.1.same b) ∧
      ∀ b, a.2.unplaced.same b.unplaced = a.2.same b) :
    samePairs (as.map unplacedPair) (bs.map unplacedPair) = samePairs as bs := by
  induction as generalizing bs with
  | nil => cases bs <;> rfl
  | cons a as ih =>
    cases bs with
    | nil => rfl
    | cons b bs =>
      obtain ⟨left, right⟩ := h a List.mem_cons_self
      obtain ⟨a, c⟩ := a
      obtain ⟨b, d⟩ := b
      simp only [List.map_cons, unplacedPair, samePairs]
      rw [left, right, ih fun a ha => h a (List.mem_cons_of_mem _ ha)]

/-- Expressions are equal without places if they are with them. -/
theorem same_unplaced (a b : Expr) : a.unplaced.same b.unplaced = a.same b := by
  induction a using parts_induction generalizing b with
  | number text t => cases b <;> simp [same]
  | var name subscripts t all => cases b <;> simp [same, sameAll_unplaced all]
  | unary op operand t inner => cases b <;> simp [same, inner]
  | binary op lhs rhs t left right => cases b <;> simp [same, left, right]
  | group items t all => cases b <;> simp [same, sameAll_unplaced all]
  | command name arguments t all => cases b <;> simp [same, sameAll_unplaced all]
  | block name arguments statements t all => cases b <;> simp [same, sameAll_unplaced all]
  | prototype name parameters t named all => cases b <;> simp [same, named, sameAll_unplaced all]
  | function form name parameters head body closed t named all inner pairs =>
    cases b <;> simp [same, named, inner, sameAll_unplaced all, samePairs_unplaced pairs]
  | call callee arguments t called all => cases b <;> simp [same, called, sameAll_unplaced all]
  | binding target value t bound inner => cases b <;> simp [same, bound, inner]

@[simp] theorem beq_unplaced (a b : Expr) : (a.unplaced == b.unplaced) = (a == b) :=
  same_unplaced a b

theorem matchesEach_unplaced {as bs : List Expr}
    (h : ∀ a ∈ as, ∀ b, a.unplaced.matchesWith b.unplaced = a.matchesWith b) :
    matchesEach (as.map unplaced) (bs.map unplaced) = matchesEach as bs := by
  induction as generalizing bs with
  | nil => cases bs <;> simp [matchesEach]
  | cons a as ih =>
    cases bs with
    | nil => simp [matchesEach]
    | cons b bs =>
      rw [List.map_cons, List.map_cons, matchesEach, matchesEach, h a List.mem_cons_self,
        ih fun a ha => h a (List.mem_cons_of_mem _ ha)]

theorem matchesAll_unplaced {as bs : List Expr}
    (h : ∀ a ∈ as, ∀ b, a.unplaced.matchesWith b.unplaced = a.matchesWith b) :
    matchesAll (as.map unplaced) (bs.map unplaced) = matchesAll as bs := by
  rw [matchesAll, matchesAll, List.length_map, List.length_map, matchesEach_unplaced h]

/-- Expressions match without places as they do with them. -/
@[simp] theorem matchesWith_unplaced (a b : Expr) :
    a.unplaced.matchesWith b.unplaced = a.matchesWith b := by
  induction a using parts_induction generalizing b with
  | number text t => cases b <;> simp [matchesWith]
  | var name subscripts t all => cases b <;> simp [matchesWith, matchesAll_unplaced all]
  | unary op operand t inner => cases b <;> simp [matchesWith, inner]
  | binary op lhs rhs t left right => cases b <;> simp [matchesWith, left, right]
  | group items t all => cases b <;> simp [matchesWith, matchesAll_unplaced all]
  | command name arguments t all => cases b <;> simp [matchesWith, matchesAll_unplaced all]
  | block name arguments statements t all =>
    cases b <;> simp [matchesWith, matchesAll_unplaced all]
  | prototype name parameters t named all =>
    cases b <;> simp [matchesWith, named, matchesAll_unplaced all]
  | function form name parameters head body closed t named all inner _ =>
    cases b <;> simp [matchesWith, named, inner, matchesAll_unplaced all]
  | call callee arguments t called all =>
    cases b <;> simp [matchesWith, called, matchesEach_unplaced all]
  | binding target value t bound inner => cases b <;> simp [matchesWith, bound, inner]

theorem occursInAny_unplaced_of {x : Expr} {es : List Expr}
    (h : ∀ e ∈ es, x.unplaced.occursIn e.unplaced = x.occursIn e) :
    x.unplaced.occursInAny (es.map unplaced) = x.occursInAny es := by
  induction es with
  | nil => rfl
  | cons e es ih =>
    rw [List.map_cons, occursInAny, occursInAny, h e List.mem_cons_self,
      ih fun e he => h e (List.mem_cons_of_mem _ he)]

/-- A variable occurs without places where it occurs with them. -/
theorem occursIn_unplaced (x e : Expr) : x.unplaced.occursIn e.unplaced = x.occursIn e := by
  -- the root matches alike, and the rest is left to the parts
  have root := matchesWith_unplaced e x
  induction e using parts_induction with
  | number text t =>
    rw [occursIn.eq_def, occursIn.eq_def x, root]
    rfl
  | var name subscripts t all =>
    rw [occursIn.eq_def, occursIn.eq_def x, root]
    simp only [unplaced_var]
    rw [occursInAny_unplaced_of fun e he => all e he (matchesWith_unplaced e x)]
  | unary op operand t inner =>
    rw [occursIn.eq_def, occursIn.eq_def x, root]
    simp only [unplaced_unary]
    rw [inner (matchesWith_unplaced operand x)]
  | binary op lhs rhs t left right =>
    rw [occursIn.eq_def, occursIn.eq_def x, root]
    simp only [unplaced_binary]
    rw [left (matchesWith_unplaced lhs x), right (matchesWith_unplaced rhs x)]
  | group items t all =>
    rw [occursIn.eq_def, occursIn.eq_def x, root]
    simp only [unplaced_group]
    rw [occursInAny_unplaced_of fun e he => all e he (matchesWith_unplaced e x)]
  | command name arguments t all =>
    rw [occursIn.eq_def, occursIn.eq_def x, root]
    simp only [unplaced_command]
    rw [occursInAny_unplaced_of fun e he => all e he (matchesWith_unplaced e x)]
  | block name arguments statements t all =>
    rw [occursIn.eq_def, occursIn.eq_def x, root]
    simp only [unplaced_block]
    rw [occursInAny_unplaced_of fun e he => all e he (matchesWith_unplaced e x)]
  | prototype name parameters t named all =>
    rw [occursIn.eq_def, occursIn.eq_def x, root]
    simp only [unplaced_prototype]
    rw [occursInAny_unplaced_of fun e he => all e he (matchesWith_unplaced e x)]
  | function form name parameters head body closed t named all inner _ =>
    have prototype := matchesWith_unplaced (.prototype name parameters head) x
    rw [unplaced_prototype] at prototype
    rw [occursIn.eq_def, occursIn.eq_def x, root]
    simp only [unplaced_function]
    rw [prototype, occursInAny_unplaced_of fun e he => all e he (matchesWith_unplaced e x),
      inner (matchesWith_unplaced body x)]
  | call callee arguments t called all =>
    rw [occursIn.eq_def, occursIn.eq_def x, root]
    simp only [unplaced_call]
    rw [called (matchesWith_unplaced callee x),
      occursInAny_unplaced_of fun e he => all e he (matchesWith_unplaced e x)]
  | binding target value t bound inner =>
    rw [occursIn.eq_def, occursIn.eq_def x, root]
    simp only [unplaced_binding]
    rw [bound (matchesWith_unplaced target x), inner (matchesWith_unplaced value x)]

@[simp] theorem occursInAny_unplaced (x : Expr) (es : List Expr) :
    x.unplaced.occursInAny (es.map unplaced) = x.occursInAny es :=
  occursInAny_unplaced_of fun e _ => occursIn_unplaced x e

/-! ## Writing -/

open Printer

@[simp] theorem tightness_unplaced (style : Style) (e : Expr) :
    tightness style e.unplaced = tightness style e := by
  cases e with
  | binary op => cases op <;> rfl
  | _ => rfl

@[simp] theorem wrapsLeft_unplaced (style : Style) (op : Operator) (e : Expr) :
    wrapsLeft style op e.unplaced = wrapsLeft style op e := by
  cases e with
  | binary op => cases op <;> rfl
  | _ => rfl

@[simp] theorem wrapsRight_unplaced (style : Style) (op : Operator) (e : Expr) :
    wrapsRight style op e.unplaced = wrapsRight style op e := by
  cases e with
  | binary op => cases op <;> rfl
  | _ => rfl

/-- Parentheses and blanks do not depend on places. -/
theorem operation_unplaced (style : Style) (op : Operator) (lhs rhs : Expr)
    (left right : String) : operation style op lhs.unplaced rhs.unplaced left right =
      operation style op lhs rhs left right := by
  simp only [operation, juxtaposed, wrapsLeft_unplaced, wrapsRight_unplaced, isNumber_unplaced]

theorem texAll_unplaced_of {style : Style} {es : List Expr}
    (h : ∀ e ∈ es, tex style e.unplaced = tex style e) :
    texAll style (es.map unplaced) = texAll style es := by
  induction es with
  | nil => rfl
  | cons e es ih =>
    rw [List.map_cons, texAll, texAll, h e List.mem_cons_self,
      ih fun e he => h e (List.mem_cons_of_mem _ he)]

/-- The text of an expression, and the texts of its sides if it is a binding. -/
def SameText (style : Style) (e : Expr) : Prop :=
  tex style e.unplaced = tex style e ∧
    ∀ target value t, e = binding target value t →
      tex style target.unplaced = tex style target ∧ tex style value.unplaced = tex style value

theorem texLines_unplaced_of {style : Style} {aligned : Bool} {es : List Expr}
    (h : ∀ e ∈ es, SameText style e) :
    texLines style aligned (es.map unplaced) = texLines style aligned es := by
  induction es with
  | nil => rfl
  | cons e es ih =>
    obtain ⟨whole, sides⟩ := h e List.mem_cons_self
    rw [List.map_cons, texLines.eq_def, texLines.eq_def style aligned (e :: es)]
    dsimp only
    rw [ih fun e he => h e (List.mem_cons_of_mem _ he)]
    cases e with
    | binding target value t =>
      obtain ⟨left, right⟩ := sides target value t rfl
      rw [unplaced_binding]
      dsimp only
      rw [left, right]
    | _ =>
      simp only [unplaced_number, unplaced_var, unplaced_unary, unplaced_binary, unplaced_group,
        unplaced_command, unplaced_block, unplaced_prototype, unplaced_function,
        unplaced_call] at whole ⊢
      rw [whole]

/-- An expression is written out without places as it is with them. -/
theorem sameText (style : Style) (e : Expr) : SameText style e := by
  induction e using parts_induction with
  | number text t => exact ⟨by simp only [unplaced_number, tex], nofun⟩
  | var name subscripts t all =>
    refine ⟨?_, nofun⟩
    simp only [unplaced_var, tex, List.isEmpty_map, texAll_unplaced_of fun e he => (all e he).1]
  | unary op operand t inner =>
    exact ⟨by simp only [unplaced_unary, tex, tightness_unplaced, inner.1], nofun⟩
  | binary op lhs rhs t left right =>
    exact ⟨by simp only [unplaced_binary, tex, operation_unplaced, left.1, right.1], nofun⟩
  | group items t all =>
    exact ⟨by simp only [unplaced_group, tex, texAll_unplaced_of fun e he => (all e he).1], nofun⟩
  | command name arguments t all =>
    exact ⟨by simp only [unplaced_command, tex, texAll_unplaced_of fun e he => (all e he).1],
      nofun⟩
  | block name arguments statements t all =>
    exact ⟨by simp only [unplaced_block, tex, texLines_unplaced_of all], nofun⟩
  | prototype name parameters t named all =>
    exact ⟨by simp only [unplaced_prototype, tex, named.1,
      texAll_unplaced_of fun e he => (all e he).1], nofun⟩
  | function form name parameters head body closed t named all inner _ =>
    exact ⟨by simp only [unplaced_function, tex, named.1, inner.1,
      texAll_unplaced_of fun e he => (all e he).1], nofun⟩
  | call callee arguments t called all =>
    exact ⟨by simp only [unplaced_call, tex, called.1,
      texAll_unplaced_of fun e he => (all e he).1], nofun⟩
  | binding target value t bound inner =>
    refine ⟨by simp only [unplaced_binding, tex, bound.1, inner.1], ?_⟩
    rintro _ _ _ ⟨⟩
    exact ⟨bound.1, inner.1⟩

@[simp] theorem tex_unplaced (style : Style) (e : Expr) : tex style e.unplaced = tex style e :=
  (sameText style e).1

theorem heightAll_unplaced_of {es : List Expr} (all : ∀ e ∈ es, e.unplaced.height = e.height) :
    heightAll (es.map unplaced) = heightAll es := by
  induction es with
  | nil => rfl
  | cons e es ih =>
    obtain ⟨first, others⟩ := List.forall_mem_cons.1 all
    rw [List.map_cons, heightAll, heightAll, first, ih others]

/-- An expression is as high without places. -/
@[simp] theorem height_unplaced (e : Expr) : e.unplaced.height = e.height := by
  induction e using parts_induction with
  | number => rfl
  | var _ _ _ all | group _ _ all | command _ _ _ all | block _ _ _ _ all =>
    simp [height, heightAll_unplaced_of all]
  | unary _ _ _ inner => simp [height, inner]
  | binary _ _ _ _ left right => simp [height, left, right]
  | prototype _ _ _ named all | call _ _ _ named all =>
    simp [height, named, heightAll_unplaced_of all]
  | function _ _ _ _ _ _ _ named all inner =>
    simp [height, named, inner, heightAll_unplaced_of all]
  | binding _ _ _ bound inner => simp [height, bound, inner]

@[simp] theorem texWithin_unplaced (room : Room) (style : Style) (e : Expr) :
    texWithin room style e.unplaced = texWithin room style e := by
  rw [texWithin, texWithin, height_unplaced, tex_unplaced]

/-! ## Substitution -/

/-- What replaces a variable does not depend on places. -/
theorem lastBound?_unplaced (bindings : List (Expr × Expr)) (x : Expr) :
    lastBound? (bindings.map unplacedPair) x.unplaced =
      (lastBound? bindings x).map unplaced := by
  have key : ((fun b : Expr × Expr => b.1 == x.unplaced) ∘ unplacedPair) =
      fun b => b.1 == x := funext fun b => beq_unplaced b.1 x
  rw [lastBound?, lastBound?, ← List.map_reverse, List.find?_map, key, Option.map_map,
    Option.map_map]
  rfl

theorem map_substitute_unplaced {bindings : List (Expr × Expr)} {es : List Expr}
    (h : ∀ e ∈ es, (e.substitute bindings).unplaced =
      e.unplaced.substitute (bindings.map unplacedPair)) :
    (es.map (substitute bindings)).map unplaced =
      (es.map unplaced).map (substitute (bindings.map unplacedPair)) := by
  rw [List.map_map, List.map_map]
  exact List.map_congr_left h

/-- Variables are replaced without places as they are with them. -/
theorem substitute_unplaced (bindings : List (Expr × Expr)) (e : Expr) :
    (e.substitute bindings).unplaced =
      e.unplaced.substitute (bindings.map unplacedPair) := by
  induction e using parts_induction with
  | number text t => rw [substitute_number, unplaced_number, substitute_number]
  | var name subscripts t all =>
    have bound := lastBound?_unplaced bindings (.var name subscripts t)
    rw [unplaced_var] at bound
    rw [substitute_var, unplaced_var, substitute_var, bound]
    cases lastBound? bindings (.var name subscripts t) with
    | none =>
      simp only [Option.getD_none, Option.map_none, unplaced_var, map_substitute_unplaced all]
    | some v => rfl
  | unary op operand t inner =>
    rw [substitute_unary, unplaced_unary, unplaced_unary, substitute_unary, inner]
  | binary op lhs rhs t left right =>
    rw [substitute_binary, unplaced_binary, unplaced_binary, substitute_binary, left, right]
  | group items t all =>
    rw [substitute_group, unplaced_group, unplaced_group, substitute_group,
      map_substitute_unplaced all]
  | command name arguments t all =>
    rw [substitute_command, unplaced_command, unplaced_command, substitute_command,
      map_substitute_unplaced all]
  | block name arguments statements t all =>
    rw [substitute_block, unplaced_block, unplaced_block, substitute_block,
      map_substitute_unplaced all]
  | prototype name parameters t _ _ =>
    rw [substitute_prototype, unplaced_prototype, substitute_prototype]
  | function form name parameters head body closed t _ _ inner _ =>
    rw [substitute_function, unplaced_function, unplaced_function, substitute_function, inner]
  | call callee arguments t called all =>
    rw [substitute_call, unplaced_call, unplaced_call, substitute_call, called,
      map_substitute_unplaced all]
  | binding target value t bound inner =>
    rw [substitute_binding, unplaced_binding, unplaced_binding, substitute_binding, bound, inner]

end Expr

end TexAlgebra
