import TexAlgebra.Expr
import TexAlgebra.Numeral
import TexAlgebra.Text.Alphanumeric
/-!
# Writing expressions

`tex` writes an expression as text that can be read again. Parentheses stand only where the meaning
would change without them: an operation is put into parentheses below an operator that binds
tighter, and on the right of one that binds as tightly, unless the two may be regrouped. A product
that was written by juxtaposition is written so again, unless its factors would then run together.

A number is written out in full, which can fail; this is the only way for `tex` to fail on an
expression that was read from a text. Writing goes down as many levels as the expression has; where
there may be too little room for them, `texWithin` writes it.
-/

namespace TexAlgebra

/-- How an expression is written. -/
structure Style where
  /-- Whether a quotient is written with a slash and not as a fraction. -/
  inline : Bool
  /-- Whether the subscripts of variables are left out. -/
  ignoreSubscripts : Bool
  deriving DecidableEq, Repr, Inhabited

namespace Style

/-- Quotients as fractions, and variables with their subscripts. -/
def display : Style := ⟨false, false⟩

/-- Quotients with a slash, and variables with their subscripts. -/
def oneLine : Style := ⟨true, false⟩

end Style

namespace Printer

/-! ## Where parentheses stand -/

/-- How tightly a sign binds: tighter than a product and looser than a power. -/
def signPrecedence : Nat := 50

/-- The precedence of what holds together by itself. -/
def tightest : Nat := 100

/-- How tightly the text of an expression holds together. -/
def tightness (style : Style) : Expr → Nat
  | .binary .divide _ _ _ => if style.inline then Operator.divide.precedence else tightest
  | .binary op _ _ _ => op.precedence
  | .unary _ _ _ => signPrecedence
  | _ => tightest

/-- Whether the root of an expression is an operator that may be regrouped. -/
def regroups : Expr → Bool
  | .binary op _ _ _ => op.isAssociative
  | _ => false

/-- Whether the left operand of `op` stands in parentheses. -/
def wrapsLeft (style : Style) (op : Operator) (lhs : Expr) : Bool :=
  match lhs with
  | .unary _ _ _ => signPrecedence < op.precedence
  | lhs => tightness style lhs < op.precedence

/-- Whether the right operand of `op` stands in parentheses. A sign can start any right operand. -/
def wrapsRight (style : Style) (op : Operator) (rhs : Expr) : Bool :=
  match rhs with
  | .unary _ _ _ => false
  | rhs =>
    if tightness style rhs = op.precedence then !(op.isAssociative && regroups rhs)
    else tightness style rhs < op.precedence

/-- The text in parentheses. -/
def parenthesized (s : String) : String := "(" ++ s ++ ")"

/-- The text in braces. -/
def braced (s : String) : String := "\x7b" ++ s ++ "\x7d"

/-- The text, in parentheses if `wrap`. -/
def wrapped (wrap : Bool) (s : String) : String := if wrap then parenthesized s else s

/-- The first character of a text. -/
def firstChar (s : String) : Except Obstacle Char :=
  match s.toList.head? with
  | some c => .ok c
  | none => .error .emptyText

/-- The last character of a text. -/
def lastChar (s : String) : Except Obstacle Char :=
  match s.toList.getLast? with
  | some c => .ok c
  | none => .error .emptyText

/-- Whether a right factor has to stand in parentheses because of its text: it must start like an
operand, and its digits must not run into a number on its left. -/
def runsTogether (lhs rhs : String) : Except Obstacle Bool := do
  let first ← firstChar rhs
  if !(Text.isAlphanumeric first || first == '(') then return true
  if !Text.isDigit first then return false
  let last ← lastChar lhs
  return Text.isDigit last || last == '.'

/-- Two factors side by side, given their texts. -/
def juxtaposed (style : Style) (lhs rhs : Expr) (left right : String) :
    Except Obstacle String := do
  if lhs.isNumber && rhs.isNumber then return parenthesized left ++ parenthesized right
  let left := wrapped (wrapsLeft style .juxtaposed lhs) left
  if wrapsRight style .juxtaposed rhs then return left ++ parenthesized right
  return left ++ wrapped (← runsTogether left right) right

/-- An operation, given the texts of its operands. -/
def operation (style : Style) (op : Operator) (lhs rhs : Expr) (left right : String) :
    Except Obstacle String :=
  let left' := wrapped (wrapsLeft style op lhs) left
  let right' := wrapped (wrapsRight style op rhs) right
  match op with
  | .juxtaposed => juxtaposed style lhs rhs left right
  | .divide =>
    if style.inline then return left' ++ " / " ++ right'
    else return "\\frac" ++ braced left ++ braced right
  | .power => return left' ++ "^" ++ right'
  | op => return left' ++ " " ++ op.sign ++ " " ++ right'

/-! ## Lists -/

/-- The lists whose bindings are aligned at their equality sign. -/
def alignedNames : List String := ["aligned", "align", "eqnarray", "eqalign", "split"]

/-- A list with its name, its further arguments and the texts of its statements. -/
def block (name : String) (arguments : List String) (statements : List String) : String :=
  let opening := "\\begin" ++ braced name ++ String.join ((arguments.drop 1).map braced)
  let closing := "\\end" ++ braced name
  match statements with
  | [] => opening ++ "\n" ++ closing
  | lines => opening ++ "\n" ++ String.intercalate " \\\\\n" lines ++ "\n" ++ closing

end Printer

/-! ## Expressions -/

namespace Expr

open Printer

mutual

/-- The text of an expression. -/
def tex (style : Style) : Expr → Except Obstacle String
  | number text _ => Numeral.render text
  | var name subscripts _ => do
    if style.ignoreSubscripts || subscripts.isEmpty then return name
    return name ++ "_" ++ braced (String.intercalate "," (← texAll style subscripts))
  | unary op operand _ => do
    let text ← tex style operand
    return op.sign ++ wrapped (tightness style operand < Operator.power.precedence) text
  | binary op lhs rhs _ => do
    let left ← tex style lhs
    let right ← tex style rhs
    operation style op lhs rhs left right
  | group items _ => do
    return braced (" " ++ String.intercalate " " (← texAll style items) ++ " ")
  | command name arguments _ => do
    return name ++ String.join (← texAll style arguments)
  | block name arguments statements _ => do
    return Printer.block name arguments
      (← texLines style (alignedNames.contains name) statements)
  | prototype name parameters _ => do
    let text ← tex style name
    return text ++ parenthesized (String.intercalate ", " (← texAll style parameters))
  | function _ name parameters _ body _ _ => do
    let text ← tex style name
    let head := text ++ parenthesized (String.intercalate ", " (← texAll style parameters))
    return head ++ " = " ++ (← tex style body)
  | call callee arguments _ => do
    let text ← tex style callee
    return text ++ parenthesized (String.intercalate ", " (← texAll style arguments))
  | binding target value _ => do
    let text ← tex style target
    return text ++ " = " ++ (← tex style value)

/-- The texts of several expressions. -/
def texAll (style : Style) : List Expr → Except Obstacle (List String)
  | [] => return []
  | e :: es => do
    let text ← tex style e
    return text :: (← texAll style es)

/-- The texts of the statements of a list, where bindings have an alignment mark if `aligned`. -/
def texLines (style : Style) (aligned : Bool) : List Expr → Except Obstacle (List String)
  | [] => return []
  | e :: es => do
    let text ← match e with
      | binding target value _ => do
        let target ← tex style target
        let value ← tex style value
        pure (target ++ (if aligned then " &= " else " = ") ++ value)
      | e => tex style e
    return text :: (← texLines style aligned es)

end

/-! ## Levels -/

mutual

/-- The number of levels of an expression. -/
def height : Expr → Nat
  | number _ _ => 1
  | var _ subscripts _ => heightAll subscripts + 1
  | unary _ operand _ => height operand + 1
  | binary _ lhs rhs _ => max (height lhs) (height rhs) + 1
  | group items _ => heightAll items + 1
  | command _ arguments _ => heightAll arguments + 1
  | block _ _ statements _ => heightAll statements + 1
  | prototype name parameters _ => max (height name) (heightAll parameters) + 1
  | function _ name parameters _ body _ _ =>
    max (max (height name) (heightAll parameters) + 1) (height body) + 1
  | call callee arguments _ => max (height callee) (heightAll arguments) + 1
  | binding target value _ => max (height target) (height value) + 1

/-- The number of levels of the highest of several expressions. -/
def heightAll : List Expr → Nat
  | [] => 0
  | e :: es => max (height e) (heightAll es)

end

/-- The text of an expression, if there is room for its levels. -/
def texWithin (room : Room) (style : Style) (e : Expr) : Except Obstacle String :=
  if room.holds e.height then e.tex style else .error .tooDeep

end Expr

end TexAlgebra
