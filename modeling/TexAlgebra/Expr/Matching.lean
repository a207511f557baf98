import TexAlgebra.Expr
import TexAlgebra.Numeral
/-!
# Matching

Two expressions match when they are equal up to the spelling of their numbers: `2` matches `2.0`.
The raw arguments of a list and the closed parameters of a function play no part in it. A malformed
numeral has no value, so a match that has to look at one fails.
-/

namespace TexAlgebra.Expr

/-- The conjunction of two tests, of which the second is made only if the first holds. -/
def both (a : Except Obstacle Bool) (b : Except Obstacle Bool) : Except Obstacle Bool := do
  if ← a then b else return false

/-- The disjunction of two tests, of which the second is made only if the first fails. -/
def either (a : Except Obstacle Bool) (b : Except Obstacle Bool) : Except Obstacle Bool := do
  if ← a then return true else b

mutual

/-- Whether two expressions are equal up to the spelling of their numbers. -/
def matchesWith : Expr → Expr → Except Obstacle Bool
  | number s _, number t _ => Numeral.sameValue s t
  | var n ss _, var m ts _ => both (pure (n == m)) (matchesAll ss ts)
  | unary p a _, unary q b _ => both (pure (p.alike q)) (matchesWith a b)
  | binary p a b _, binary q c d _ =>
    both (pure (p.alike q)) (both (matchesWith a c) (matchesWith b d))
  | group as _, group bs _ => matchesAll as bs
  | command n as _, command m bs _ => both (pure (n == m)) (matchesAll as bs)
  | block n _ as _, block m _ bs _ => both (pure (n == m)) (matchesAll as bs)
  | prototype n as _, prototype m bs _ => both (matchesWith n m) (matchesAll as bs)
  | function f n as _ b _ _, function g m bs _ c _ _ =>
    both (pure (f == g)) (both (both (matchesWith n m) (matchesAll as bs)) (matchesWith b c))
  | call a as _, call b bs _ =>
    both (pure (as.length == bs.length)) (both (matchesWith a b) (matchesEach as bs))
  | binding a b _, binding c d _ => both (matchesWith a c) (matchesWith b d)
  | _, _ => pure false

/-- Whether two lists are of one length and match item by item. -/
def matchesAll (as bs : List Expr) : Except Obstacle Bool :=
  both (pure (as.length == bs.length)) (matchesEach as bs)

/-- Whether two lists match item by item as far as both go. -/
def matchesEach : List Expr → List Expr → Except Obstacle Bool
  | a :: as, b :: bs => both (matchesWith a b) (matchesEach as bs)
  | _, _ => pure true

end

mutual

/-- Whether a variable occurs anywhere in an expression, subscripts included. The name of a function
is not looked at. -/
def occursIn (x : Expr) (e : Expr) : Except Obstacle Bool := do
  if ← matchesWith e x then return true
  match e with
  | number _ _ => return false
  | var _ subscripts _ => occursInAny x subscripts
  | unary _ operand _ => occursIn x operand
  | binary _ lhs rhs _ => either (occursIn x lhs) (occursIn x rhs)
  | group items _ => occursInAny x items
  | command _ arguments _ => occursInAny x arguments
  | block _ _ statements _ => occursInAny x statements
  | prototype _ parameters _ => occursInAny x parameters
  | function _ name parameters head body _ _ =>
    either (matchesWith (prototype name parameters head) x)
      (either (occursInAny x parameters) (occursIn x body))
  | call callee arguments _ => either (occursIn x callee) (occursInAny x arguments)
  | binding target value _ => either (occursIn x target) (occursIn x value)

/-- Whether a variable occurs in one of several expressions. -/
def occursInAny (x : Expr) : List Expr → Except Obstacle Bool
  | [] => return false
  | e :: es => either (occursIn x e) (occursInAny x es)

end

end TexAlgebra.Expr
