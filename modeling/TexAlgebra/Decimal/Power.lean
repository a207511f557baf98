import TexAlgebra.Decimal.Enclosure
/-!
# Powers of decimal numbers

A power is not the exact power rounded once, though it nearly always is the same. It goes through
numbers of more digits than a result, each of them rounded, and the last of them is rounded to a
result. Whole powers are products, by repeated squaring; all others are exponentials of products
with logarithms. How many digits are kept on the way depends on the exponent of a whole power, and
on the digits of the base of any other when it is written out.

A power depends on the values of base and exponent alone, since both are freed of zeros at their end
first: zeros behind the last digit after the point do not count.
-/

namespace TexAlgebra.Decimal

/-! ## Powers out of range -/

/-- The result below the smallest positive number or beyond the largest one. -/
def outOfRange (negative large : Bool) : Except Signal Decimal :=
  if large then .error .overflow else .ok ⟨negative, 0, minExponent⟩

/-- A bound for how near the decimal logarithm of `x`, a positive number other than one, is to zero:
it is at least `10 ^ -(closeness x + 2)` in size. A number that leads with the units or the tenths
differs from one by at least a unit of its last place; the logarithm of all others is at least one.
-/
def closeness (x : Decimal) : Nat :=
  if x.leading = 0 ∨ x.leading = -1 then digitCount x.coefficient else 0

/-- Whether the power of `x`, a positive number other than one, to `y` is certainly out of range. -/
def leavesRange (x y : Decimal) : Bool := x.closeness + 10 < y.leading

/-! ## Whole powers -/

/-- The product of `a` and `b` rounded to `digits` digits. -/
def mulWith (digits : Nat) (a b : Decimal) : Except Signal Decimal :=
  nearestWith digits (a.negative != b.negative) (a.coefficient * b.coefficient) 1
    (a.exponent + b.exponent)

/-- The power of `x` to `n`, whose binary digits are read from the left. The highest of them, which
is one, has the place `bits`. -/
def powerFromLeft (digits : Nat) (x : Decimal) : (bits n : Nat) → Except Signal Decimal
  | 0, _ => .ok x
  | bits + 1, n => do
    let half ← powerFromLeft digits x bits (n / 2)
    let square ← mulWith digits half half
    if n % 2 = 1 then mulWith digits square x else .ok square

/-- The product of `product` and the power of `x` to `n`, whose binary digits are read from the
right. The highest of them, which is one, has the place `bits`. -/
def powerFromRight (digits : Nat) : (bits n : Nat) → (x product : Decimal) → Except Signal Decimal
  | 0, _, x, product => mulWith digits product x
  | bits + 1, n, x, product => do
    let product ← if n % 2 = 1 then mulWith digits product x else .ok product
    let square ← mulWith digits x x
    powerFromRight digits bits (n / 2) square product

/-- The smallest exponent whose binary digits are read from the right: two to the power 64. -/
def longExponent : Nat := 18446744073709551616

/-- The power of `x` to a positive `n`. -/
def repeatedly (x : Decimal) (digits n : Nat) : Except Signal Decimal :=
  if n < longExponent then powerFromLeft digits x (Nat.log2 n) n
  else powerFromRight digits (Nat.log2 n) n x one

/-- The number of digits on the way to a whole power. -/
def wholePowerDigits (inverse : Bool) (n : Nat) : Nat :=
  precision + digitCount n + (if inverse then 3 else 2)

/-- The factor of which a whole power of a positive `x` is made: `x` itself or, if `inverse`, one
over `x`. -/
def factor (x : Decimal) (digits : Nat) (inverse : Bool) : Except Signal Decimal :=
  if inverse then nearestWith digits false 1 x.coefficient (-x.exponent) else .ok x

/-- The number `± x ^ n` or, if `inverse`, one over it, for a positive `x`. -/
def wholePower (negative inverse : Bool) (x : Decimal) (n : Nat) : Except Signal Decimal := do
  let digits := wholePowerDigits inverse n
  let factor ← x.factor digits inverse
  let power ← factor.repeatedly digits n
  nearest negative power.coefficient 1 power.exponent

/-! ## Powers -/

/-- The most zeros at its end with which a number counts as written out. -/
def maxZeros : Nat := 5000

/-- The number of digits of `x`, a number without zeros at the end of its coefficient, when it is
written out. Where that takes too many zeros, they do not count. -/
def writtenDigits (x : Decimal) : Nat :=
  digitCount x.coefficient + (if x.exponent ≤ maxZeros then x.exponent.toNat else 0)

/-- The number of digits on the way to a power that is not whole. -/
def fractionalPowerDigits (x : Decimal) : Nat := max precision x.writtenDigits + 23

/-- The power of a positive `x` other than one to `y`. -/
def fractionalPower (x y : Decimal) : Except Signal Decimal := do
  let digits := fractionalPowerDigits x
  let log ← logWith digits x
  let product ← mulWith digits log y
  let power ← expWith digits product
  nearest false power.coefficient 1 power.exponent

/-- Whether `d`, a whole number without zeros at the end, is odd. -/
def isOdd (d : Decimal) : Bool := d.exponent == 0 && d.coefficient % 2 == 1

/-- The number `± x ^ y` for a positive `x`, both without zeros at the end. The sign is a plus
unless `y` is a whole number. -/
def positivePower (negative : Bool) (x y : Decimal) : Except Signal Decimal :=
  if x = one then .ok (ofNat negative 1)
  else if leavesRange x y then outOfRange negative ((0 ≤ x.leading) != y.negative)
  else if 0 ≤ y.exponent then wholePower negative y.negative x y.truncate
  else fractionalPower x y

/-- The power of `a` to `b`. Zero to the zero makes no sense, nor does a fractional power of a
negative number; a negative power of zero divides by zero. -/
def pow (a b : Decimal) : Except Signal Decimal :=
  if b.isZero then
    if a.isZero then .error .invalid else .ok one
  else if a.isZero then
    if b.negative then .error .divisionByZero
    else .ok (ofNat false 0)
  else if a.negative && !b.isWhole then .error .invalid
  else
    let y := b.stripped
    positivePower (a.negative && y.isOdd) a.magnitude.stripped y

end TexAlgebra.Decimal
