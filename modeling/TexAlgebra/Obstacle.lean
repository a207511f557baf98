import TexAlgebra.Decimal.Special
import TexAlgebra.Operator
/-!
# Obstacles

What can stop a computation on expressions other than a fault of the formula itself: a number that
cannot be computed or written out, an operator that has no meaning where it stands, or a recursion
that goes too deep. An obstacle of a number says what was being done with the number.

A recursion goes down level by level, and `Room` says how many levels are left. There may be room
for any number of them, which makes the rest of a computation easier to speak about; a session
always has a bounded one.
-/

namespace TexAlgebra

/-! ## Work on numbers -/

/-- What is done with a number when it fails. -/
inductive Work where
  /-- A text is read as a number. -/
  | reading (text : String)
  /-- The number that a text spells is given a sign. -/
  | signing (op : Operator) (text : String)
  /-- A number is written with at least `digits` digits after the point. -/
  | writing (d : Decimal) (digits : Nat)
  /-- A value that is no finite number is compared or written. -/
  | special (s : Decimal.Special)
  deriving DecidableEq, Repr, Inhabited

/-- Why a computation has no result. -/
inductive Obstacle where
  /-- A number is malformed, out of range or needs too many digits. -/
  | arithmetic (work : Work) (signal : Decimal.Signal)
  /-- The operator has no meaning for numbers where it stands. -/
  | noOperation (op : Operator)
  /-- The first or the last character of an empty text was needed. -/
  | emptyText
  /-- The innermost scope was to be left, but no scope is open. -/
  | noScope
  /-- Too many calls or expansions are nested in one another. -/
  | tooDeep
  deriving DecidableEq, Repr, Inhabited

/-- The result of an operation on decimal numbers, whose failure is an obstacle to some work. -/
def Work.result {α : Type} (work : Work) : Except Decimal.Signal α → Except Obstacle α
  | .ok a => .ok a
  | .error signal => .error (.arithmetic work signal)

namespace Obstacle

/-- The obstacle in words, as an internal error reports it. -/
def description : Obstacle → String
  | arithmetic _ .invalid => "InvalidOperation: [<class 'decimal.InvalidOperation'>]"
  | arithmetic _ .divisionByZero => "DivisionByZero: [<class 'decimal.DivisionByZero'>]"
  | arithmetic _ .overflow => "Overflow: [<class 'decimal.Overflow'>]"
  | noOperation op => "KeyError: '" ++ op.sign ++ "'"
  | emptyText => "IndexError: string index out of range"
  | noScope => "IndexError: pop from empty list"
  | tooDeep => "RecursionError: maximum recursion depth exceeded"

end Obstacle

/-! ## Room -/

/-- How many more levels a recursion may go down. -/
inductive Room where
  | unbounded
  | levels (n : Nat)
  deriving DecidableEq, Repr, Inhabited

/-- The number of levels that there is room for when a statement is carried out. A level stands for
the visit of one expression inside of that of another. -/
def maxLevels : Nat := 330

namespace Room

/-- Whether there is room for `n` levels. -/
def holds : Room → Nat → Bool
  | unbounded, _ => true
  | levels m, n => n ≤ m

/-- What a step gives that is made one level further down, with the room that is left there. Without
any room it is not made, and the result is `otherwise`. -/
def nested {α : Type} (room : Room) (otherwise : α) (step : Room → α) : α :=
  match room with
  | unbounded => step unbounded
  | levels 0 => otherwise
  | levels (n + 1) => step (levels n)

end Room

end TexAlgebra
