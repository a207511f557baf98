/-!
# Operators

The infix operators of a formula, with the table that ranks them. A product may be written with a
`*` or by plain juxtaposition; the two are kept apart because they print differently, and
`Operator.alike` forgets the difference.
-/

namespace TexAlgebra

/-- An infix operator. `juxtaposed` is a product written without a sign, as in `2x`. -/
inductive Operator where
  | plus
  | minus
  | times
  | juxtaposed
  | divide
  | power
  | equals
  deriving DecidableEq, Repr, Inhabited

namespace Operator

/-- The sign an operator stands for; a juxtaposition stands for `*`. -/
def sign : Operator → String
  | plus => "+"
  | minus => "-"
  | times => "*"
  | juxtaposed => "*"
  | divide => "/"
  | power => "^"
  | equals => "="

/-- The operator written as `s`, if there is one. -/
def ofSign? (s : String) : Option Operator :=
  [plus, minus, times, divide, power, equals].find? (·.sign == s)

/-- How tightly an operator binds: the larger, the tighter. -/
def precedence : Operator → Nat
  | equals => 10
  | plus => 20
  | minus => 20
  | times => 40
  | juxtaposed => 40
  | divide => 40
  | power => 60

/-- Whether the operator may also stand before a single operand. -/
def isSign : Operator → Bool
  | plus => true
  | minus => true
  | _ => false

/-- Whether a chain of this operator may be regrouped without parentheses. -/
def isAssociative : Operator → Bool
  | plus => true
  | times => true
  | juxtaposed => true
  | _ => false

/-- Whether the operator is written as plain juxtaposition. -/
def isJuxtaposed : Operator → Bool
  | juxtaposed => true
  | _ => false

/-- The operator with a juxtaposition read as an explicit product. -/
def explicit : Operator → Operator
  | juxtaposed => times
  | op => op

/-- Equality up to the way a product is written. -/
def alike (a b : Operator) : Bool := a.explicit == b.explicit

theorem alike_iff {a b : Operator} : a.alike b = true ↔ a.explicit = b.explicit := by
  simp [alike]

@[simp] theorem alike_refl (op : Operator) : op.alike op = true := by
  simp [alike]

end Operator

end TexAlgebra
