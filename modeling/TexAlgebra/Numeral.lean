import TexAlgebra.Decimal.Power
import TexAlgebra.Obstacle
/-!
# Numerals

Numbers of a formula are kept as they are written, so that `2.50` keeps its two digits after the
point. A numeral is the text of a number; operations on numerals compute with the decimal numbers
they spell and write the result with at least as many digits after the point as the most precise
operand has: `2 + 2.00` is `4.00`. A numeral may also spell an infinity or no number at all.
-/

namespace TexAlgebra.Numeral

/-- The finite number that a numeral spells. -/
def value (text : String) : Except Obstacle Decimal :=
  match Decimal.ofText? text with
  | some d => .ok d
  | none => .error (.arithmetic (.reading text) .invalid)

/-- The special number that a numeral spells. -/
def special (text : String) : Except Obstacle Decimal.Special :=
  match Decimal.Special.ofText? text with
  | some s => .ok s
  | none => .error (.arithmetic (.reading text) .invalid)

/-- The number of characters after the point of a numeral. -/
def fractionalDigits (text : String) : Nat :=
  (text.toList.dropWhile (· ≠ '.')).length - 1

/-- The number that a numeral spells, written without a power of ten. -/
def plain (text : String) : Except Obstacle String := do
  match Decimal.ofText? text with
  | some d => return d.plain
  | none => return (← special text).plain

/-- A number written with at least `digits` digits after the point. -/
def written (d : Decimal) (digits : Nat) : Except Obstacle String :=
  (Work.writing d digits).result (d.render digits)

/-- A special number written so that it shows at least `digits` digits after the point. -/
def writtenSpecial (s : Decimal.Special) (digits : Nat) : Except Obstacle String :=
  (Work.special s).result (s.render digits)

/-- The number that a numeral spells, written with at least `digits` digits after the point. -/
def renderWith (digits : Nat) (text : String) : Except Obstacle String := do
  match Decimal.ofText? text with
  | some d => written d digits
  | none => writtenSpecial (← special text) digits

/-- The numeral written out in full. -/
def render (text : String) : Except Obstacle String := renderWith (fractionalDigits text) text

/-- What a sign makes of a number; no other operator stands before one. -/
def sign? : Operator → Option (Decimal → Except Decimal.Signal Decimal)
  | .plus => some Decimal.pos
  | .minus => some Decimal.neg
  | _ => none

/-- The numeral of a numeral under a sign. -/
def signed (op : Operator) (text : String) : Except Obstacle String := do
  let some sign := sign? op | throw (.noOperation op)
  match Decimal.ofText? text with
  | some d => written (← (Work.signing op text).result (sign d)) (fractionalDigits text)
  | none =>
    let s ← special text
    writtenSpecial (if op = .minus then s.neg else s) (fractionalDigits text)

/-- What an operator computes from two numbers; an equation computes nothing. -/
def operation? : Operator → Option (Decimal → Decimal → Except Decimal.Signal Decimal)
  | .plus => some Decimal.add
  | .minus => some Decimal.sub
  | .times => some Decimal.mul
  | .juxtaposed => some Decimal.mul
  | .divide => some Decimal.div
  | .power => some Decimal.pow
  | .equals => none

/-- The finite result of an operation on two numerals of which at least one spells no finite number,
if there is one. -/
def combinedSpecial? (op : Operator) (lhs rhs : String) : Option Decimal :=
  match op, Decimal.ofText? lhs, Decimal.Special.ofText? lhs, Decimal.ofText? rhs,
      Decimal.Special.ofText? rhs with
  | .divide, some _, _, _, some (.infinity _) => some (.ofNat false 0)
  | .power, some a, _, _, some (.infinity negative) =>
    Decimal.Special.powerToInfinity? a negative
  | .power, _, some (.infinity negative), some b, _ =>
    Decimal.Special.powerOfInfinity? negative b
  | .power, _, some (.infinity false), _, some (.infinity true) => some (.ofNat false 0)
  | _, _, _, _, _ => none

/-- The number that two numerals joined by an operator are, or nothing if the operation is undefined
for them, as a division by zero is. -/
def combinedValue? (op : Operator)
    (compute : Decimal → Decimal → Except Decimal.Signal Decimal) (lhs rhs : String) :
    Option Decimal :=
  match Decimal.ofText? lhs, Decimal.ofText? rhs with
  | some a, some b => (compute a b).toOption
  | _, _ => combinedSpecial? op lhs rhs

/-- The numeral of two numerals joined by an operator, or nothing if the operation is undefined. -/
def combined (op : Operator) (lhs rhs : String) : Except Obstacle (Option String) := do
  let some compute := operation? op | throw (.noOperation op)
  match combinedValue? op compute lhs rhs with
  | none => return none
  | some d =>
    let text ← written d (max (fractionalDigits lhs) (fractionalDigits rhs))
    return some text

/-- Whether a numeral spells a whole number. -/
def isWhole (text : String) : Except Obstacle Bool := do
  match Decimal.ofText? text with
  | some d => return d.isWhole
  | none =>
    let s ← special text
    (Work.special s).result s.isWhole

/-- That a special number is no finite one, if it can be compared at all. -/
def incomparable (s : Decimal.Special) : Except Obstacle Bool := do
  (Work.special s).result s.requireComparable
  return false

/-- Whether two numerals spell the same number. -/
def sameValue (s t : String) : Except Obstacle Bool := do
  match Decimal.ofText? s, Decimal.ofText? t with
  | some a, some b => return a.sameValue b
  | none, none =>
    let x ← special s
    let y ← special t
    (Work.special x).result (x.sameValue y)
  | some _, none => incomparable (← special t)
  | none, some _ => incomparable (← special s)

end TexAlgebra.Numeral
