import TexAlgebra.Token
/-!
# Expressions

The tree of a formula. Every node carries the token that introduced it, if it came from a text;
equality of expressions (`==`) ignores these tokens, and also whether a product is written by
juxtaposition.
-/

namespace TexAlgebra

/-- Whether a function is written out in a formula or is what a partial application left over. -/
inductive FunctionForm where
  | defined
  | curried
  deriving DecidableEq, Repr, Inhabited

/-- An expression. The last argument of each constructor is the token of the node. -/
inductive Expr where
  /-- A number, as written. -/
  | number (text : String) (token : Option Token)
  | var (name : String) (subscripts : List Expr) (token : Option Token)
  /-- A sign before an operand. -/
  | unary (op : Operator) (operand : Expr) (token : Option Token)
  | binary (op : Operator) (lhs rhs : Expr) (token : Option Token)
  /-- A group in braces. -/
  | group (items : List Expr) (token : Option Token)
  /-- A control word with its groups. -/
  | command (name : String) (arguments : List Expr) (token : Option Token)
  /-- A list between `\begin` and `\end`; the arguments are the texts of the groups after `\begin`,
  the name included. -/
  | block (name : String) (arguments : List String) (statements : List Expr) (token : Option Token)
  /-- The name and the parameters of a function. -/
  | prototype (name : Expr) (parameters : List Expr) (token : Option Token)
  /-- A function. The token of its prototype is `head`, and `closed` lists the parameters that were
  already replaced in the body, each with its argument. -/
  | function (form : FunctionForm) (name : Expr) (parameters : List Expr) (head : Option Token)
      (body : Expr) (closed : List (Expr × Expr)) (token : Option Token)
  | call (callee : Expr) (arguments : List Expr) (token : Option Token)
  /-- The binding of a value to a variable. -/
  | binding (target value : Expr) (token : Option Token)
  deriving Repr, Inhabited

namespace Expr

/-- The token that introduced the node. -/
def token : Expr → Option Token
  | number _ t => t
  | var _ _ t => t
  | unary _ _ t => t
  | binary _ _ _ t => t
  | group _ t => t
  | command _ _ t => t
  | block _ _ _ t => t
  | prototype _ _ t => t
  | function _ _ _ _ _ _ t => t
  | call _ _ t => t
  | binding _ _ t => t

/-- The direct parts of an expression, in order. The name of a prototype is not a part of it. -/
def parts : Expr → List Expr
  | number _ _ => []
  | var _ subscripts _ => subscripts
  | unary _ operand _ => [operand]
  | binary _ lhs rhs _ => [lhs, rhs]
  | group items _ => items
  | command _ arguments _ => arguments
  | block _ _ statements _ => statements
  | prototype _ parameters _ => parameters
  | function _ name parameters head body _ _ => [prototype name parameters head, body]
  | call callee arguments _ => callee :: arguments
  | binding target value _ => [target, value]

/-- The only item of a group of one, nothing for an empty group, and else the group itself. -/
def unwrap? (e : Expr) : Option Expr :=
  match e with
  | group [] _ => none
  | group [item] _ => some item
  | e => some e

/-- Whether the expression is a number. -/
def isNumber : Expr → Bool
  | number _ _ => true
  | _ => false

/-- Whether the expression is a variable. -/
def isVariable : Expr → Bool
  | var _ _ _ => true
  | _ => false

/-- Whether the expression is a group. -/
def isGroup : Expr → Bool
  | group _ _ => true
  | _ => false

/-- Whether the expression is an operator with its operands. -/
def isOperation : Expr → Bool
  | unary _ _ _ => true
  | binary _ _ _ _ => true
  | _ => false

/-! ## Equality -/

mutual

/-- Equality of expressions, tokens and the writing of products aside. -/
def same : Expr → Expr → Bool
  | number s _, number t _ => s == t
  | var n ss _, var m ts _ => n == m && sameAll ss ts
  | unary p a _, unary q b _ => p.alike q && same a b
  | binary p a b _, binary q c d _ => p.alike q && same a c && same b d
  | group as _, group bs _ => sameAll as bs
  | command n as _, command m bs _ => n == m && sameAll as bs
  | block n xs as _, block m ys bs _ => n == m && xs == ys && sameAll as bs
  | prototype n as _, prototype m bs _ => same n m && sameAll as bs
  | function f n as _ b cs _, function g m bs _ c ds _ =>
    f == g && same n m && sameAll as bs && same b c && samePairs cs ds
  | call a as _, call b bs _ => same a b && sameAll as bs
  | binding a b _, binding c d _ => same a c && same b d
  | _, _ => false

/-- Equality of lists of expressions, item by item. -/
def sameAll : List Expr → List Expr → Bool
  | [], [] => true
  | a :: as, b :: bs => same a b && sameAll as bs
  | _, _ => false

/-- Equality of lists of pairs of expressions, item by item. -/
def samePairs : List (Expr × Expr) → List (Expr × Expr) → Bool
  | [], [] => true
  | (a, b) :: as, (c, d) :: bs => same a c && same b d && samePairs as bs
  | _, _ => false

end

instance : BEq Expr := ⟨same⟩

end Expr

/-! ## Functions -/

/-- The parts of a function. -/
structure Function where
  form : FunctionForm
  name : Expr
  parameters : List Expr
  head : Option Token
  body : Expr
  closed : List (Expr × Expr)
  token : Option Token
  deriving Repr, Inhabited

namespace Function

/-- The function as an expression. -/
def toExpr (f : Function) : Expr :=
  .function f.form f.name f.parameters f.head f.body f.closed f.token

/-- The name and the parameters of the function. -/
def prototype (f : Function) : Expr := .prototype f.name f.parameters f.head

/-- The number of parameters. -/
def arity (f : Function) : Nat := f.parameters.length

/-- The function under another name. -/
def renamed (f : Function) (name : Expr) : Function := { f with name := name }

end Function

/-- The function that an expression is, if it is one. -/
def Expr.function? : Expr → Option Function
  | .function form name parameters head body closed token =>
    some ⟨form, name, parameters, head, body, closed, token⟩
  | _ => none

theorem Expr.eq_toExpr_of_function? {e : Expr} {f : Function} (h : e.function? = some f) :
    e = f.toExpr := by
  cases e <;> simp [Expr.function?] at h
  subst h
  rfl

/-- Whether an expression is a function. -/
def Expr.isFunction (e : Expr) : Bool := e.function?.isSome

end TexAlgebra
