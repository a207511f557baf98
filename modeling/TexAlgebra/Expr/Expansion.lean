import TexAlgebra.Expr.Traversal
import TexAlgebra.Numeral
/-!
# Expansion

Powers with a whole exponent are written out as products, and products are distributed over sums:

* `x ^ 0` is `1`, `x ^ 1` is `x`, `x ^ 2` is `x x`, and `x ^ n` is `x x ^ (n - 1)` for greater whole
  `n`;
* `x ^ -n` is `1 / x ^ n`;
* `(a ± b) c` is `a c ± b c`, and otherwise `c (a ± b)` is `c a ± c b`;
* a sign before a number becomes part of the number.

`contract?` applies one rule at the root of an expression. `expand` applies them, innermost first,
until none applies, and `step` applies the first one that it meets on its way from the root.
-/

namespace TexAlgebra.Expr

/-! ## Rules -/

/-- The number one. -/
def one (token : Option Token) : Expr := number "1" token

/-- A power whose exponent is a number, written out by one factor. -/
def contractPower? (base : Expr) (exponent : String) (exponentToken token : Option Token) :
    Except Obstacle (Option Expr) := do
  let value ← Numeral.value exponent
  if value.isZero then return some (one token)
  if value.negative then
    let positive := number (← Numeral.signed .minus exponent) exponentToken
    return some (binary .divide (one exponentToken) (binary .power base positive token) token)
  if value.sameValue (.ofNat false 1) then return some base
  if value.sameValue (.ofNat false 2) then return some (binary .juxtaposed base base token)
  if !value.isWhole then return none
  match ← Numeral.combined .minus exponent "1" with
  | some lowered =>
    let rest := binary .power base (number lowered exponentToken) token
    return some (binary .juxtaposed base rest token)
  | none => return none

/-- A product of which a factor is a sum, distributed over the sum; the left factor comes first. -/
def contractProduct? (lhs rhs : Expr) (token : Option Token) : Option Expr :=
  match lhs, rhs with
  | binary .plus a b _, c => some (distributed .plus a b (·, c))
  | binary .minus a b _, c => some (distributed .minus a b (·, c))
  | c, binary .plus a b _ => some (distributed .plus a b (c, ·))
  | c, binary .minus a b _ => some (distributed .minus a b (c, ·))
  | _, _ => none
where
  /-- The sum of the products of its terms; each product has the token of its term. -/
  distributed (op : Operator) (a b : Expr) (factors : Expr → Expr × Expr) : Expr :=
    let product (term : Expr) : Expr :=
      binary .juxtaposed (factors term).1 (factors term).2 term.token
    binary op (product a) (product b) token

/-- The expression with one rule applied at its root, if one applies there. -/
def contract? : Expr → Except Obstacle (Option Expr)
  | unary op (number text _) token => do
    return some (number (← Numeral.signed op text) token)
  | binary .power base (number text t) token => contractPower? base text t token
  | binary .times lhs rhs token => return contractProduct? lhs rhs token
  | binary .juxtaposed lhs rhs token => return contractProduct? lhs rhs token
  | _ => return none

/-! ## Full expansion -/

/-- The number of contractions that may be nested in one another. -/
def expansionDepth : Nat := 200

/-- The expression expanded, where `again` expands what a rule has produced. -/
def expandWith (again : Expr → Except Obstacle Expr) (e : Expr) : Except Obstacle Expr :=
  visit { replacement? := fun _ => return none, finish } e
where
  /-- What becomes of an expression with expanded parts. -/
  finish (e : Expr) : Except Obstacle Expr := do
    match ← contract? e with
    | some r => again r
    | none => return e

/-- The expression expanded with at most `depth` contractions nested in one another. -/
def expandWithin : Nat → Expr → Except Obstacle Expr
  | 0 => fun _ => throw .tooDeep
  | depth + 1 => expandWith (expandWithin depth)

/-- The expression contracted until no rule applies to any part of it. -/
def expand (e : Expr) : Except Obstacle Expr := expandWithin expansionDepth e

/-! ## Single steps -/

/-- The pass that contracts the first node to which a rule applies. The state tells whether there
was one. -/
def stepping : Pass (StateT Bool (Except Obstacle)) where
  replacement? e := do
    if ← get then return some e
    match ← contract? e with
    | some r => do
      set true
      return some r
    | none => return none
  finish e := return e

/-- The expression with one rule applied to the first node that admits one, the root before its
parts and these from left to right; the flag tells whether there was such a node. -/
def step (e : Expr) : Except Obstacle (Expr × Bool) := (visit stepping e).run false

/-- How a result is expanded. -/
inductive Expansion where
  /-- Until no rule applies. -/
  | full
  /-- By a single step. -/
  | once
  deriving DecidableEq, Repr, Inhabited

/-- The expression after an expansion of some extent. -/
def expandBy : Expansion → Expr → Except Obstacle Expr
  | .full, e => expand e
  | .once, e => do return (← step e).1

end TexAlgebra.Expr
