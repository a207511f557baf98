import TexAlgebra.Decimal
/-!
# Logarithms and exponentials

The logarithm and the exponential of a decimal number, correctly rounded to any number of digits.
Neither can be computed exactly, but both have enclosures as narrow as one likes, from fixed-point
arithmetic: intervals in which they lie. `Enclosure.settled?` is the result of rounding the enclosed
number, known as soon as both ends of the interval round to it.
-/

namespace TexAlgebra.Decimal

/-! ## Fixed-point logarithm and exponential -/

/-- The sum of `z + z³/3 + z⁵/5 + …` in units of `1 / one`, cut off after `terms` terms. The
argument `power` is the odd power of `z` due next and `k` its exponent. -/
def atanhTail (one zSquared : Nat) : (terms power k : Nat) → Nat
  | 0, _, _ => 0
  | terms + 1, power, k =>
    power / k + atanhTail one zSquared terms (power * zSquared / one) (k + 2)

/-- The area hyperbolic tangent of `num / den`, a number from zero to one third, in units of
`1 / one`. Every term is at most a ninth of the one before it, so eleven terms settle ten digits. -/
def atanh (one num den : Nat) : Nat :=
  let z := one * num / den
  atanhTail one (z * z / one) (digitCount one + digitCount one / 10 + 2) z 1

/-- The natural logarithm of two in units of `1 / one`. -/
def log2 (one : Nat) : Nat := 2 * atanh one 1 3

/-- The natural logarithm of ten in units of `1 / one`. -/
def log10 (one : Nat) : Nat := 2 * atanh one 1 9 + 3 * log2 one

/-- The natural logarithm of the positive number `c · 10 ^ e` in units of `1 / one`. -/
def log (one c : Nat) (e : Int) : Int :=
  let k := Nat.log2 c
  2 * (atanh one (c - Nat.pow 2 k) (c + Nat.pow 2 k) : Int) + k * log2 one + e * log10 one

/-- The sum of `term + term·x/k + term·x²/(k(k+1)) + …`, cut off after `terms` terms. -/
def expTail (one x : Nat) : (terms term k : Nat) → Nat
  | 0, _, _ => 0
  | terms + 1, term, k => term + expTail one x terms (term * x / (one * k)) (k + 1)

/-- The exponential of `x`, a number from zero to three, in units of `1 / one`. From the sixtieth
term on every term is at most a twentieth of the one before it. -/
def exp (one x : Nat) : Nat := expTail one x (digitCount one + 60) one 1

/-! ## Enclosures -/

/-- The numbers from `lower / one · 10 ^ exponent` to `upper / one · 10 ^ exponent`. -/
structure Enclosure where
  lower : Nat
  upper : Nat
  one : Nat
  exponent : Int
  deriving Repr, Inhabited

namespace Enclosure

/-- What both ends of an enclosure, below zero if `negative`, round to, if that is one number of
`digits` digits. -/
def settled? (x : Enclosure) (digits : Nat) (negative : Bool) : Option (Except Signal Decimal) :=
  match nearestWith digits negative x.lower x.one x.exponent,
      nearestWith digits negative x.upper x.one x.exponent with
  | .ok a, .ok b => if a.sameValue b then some (.ok a) else none
  | .error signal, .error _ => some (.error signal)
  | _, _ => none

/-- An enclosure of the size of the natural logarithm of the positive number `x`, by numbers that
are `2 / 10 ^ guard` apart.

The errors of the logarithm are at most twenty units for each of its digits and each of the `size`
logarithms of two and ten that it adds up. The unit is so small that they stay below `10 ^ -guard`.
-/
def ofLog (x : Decimal) (guard : Nat) : Enclosure :=
  let size := Nat.log2 x.coefficient + x.exponent.natAbs + 1
  let one := tenTo (guard + digitCount size + 10)
  let value := (log one x.coefficient x.exponent).natAbs
  let slack := one / tenTo guard
  ⟨value - slack, value + slack, one, 0⟩

/-- An enclosure of the exponential of `x`, by numbers that are `2 / 10 ^ guard` apart in units of a
number of at most the size of the exponential.

The number of factors ten in it has no more digits than `x` has before the point, and magnifies the
errors of the logarithm of ten by as much. -/
def ofExp (x : Decimal) (guard : Nat) : Enclosure :=
  let one := tenTo (guard + (x.leading + 1).toNat + 10)
  let ten := log10 one
  let value := one * x.scaled (min x.exponent 0) / tenTo x.places
  let exponent := value / ten
  let mantissa := exp one (value - exponent * ten).toNat
  let slack := one / tenTo guard
  ⟨mantissa - slack, mantissa + slack, one, exponent⟩

end Enclosure

/-! ## Results -/

/-- The number of `digits` digits nearest to a number of which there are enclosures of any width:
the first enclosure that settles it counts. Each attempt takes twice as many digits as the one
before. Where the last one settles nothing, its lower end is taken for the number. -/
def nearestEnclosed (digits : Nat) (negative : Bool) (enclosure : Nat → Enclosure) :
    (attempts guard : Nat) → Except Signal Decimal
  | 0, guard =>
    let x := enclosure guard
    nearestWith digits negative x.lower x.one x.exponent
  | attempts + 1, guard =>
    match (enclosure guard).settled? digits negative with
    | some result => result
    | none => nearestEnclosed digits negative enclosure attempts (2 * guard)

/-- The natural logarithm of `x`, a positive number other than one, rounded to `digits` digits. -/
def logWith (digits : Nat) (x : Decimal) : Except Signal Decimal :=
  nearestEnclosed digits (x.leading < 0) (Enclosure.ofLog x) 10 (digits + 10)

/-- The exponential of `x` rounded to `digits` digits. It is one for all numbers near enough to
zero. -/
def expWith (digits : Nat) (x : Decimal) : Except Signal Decimal :=
  if x.isZero || x.leading + digits + 2 < 0 then .ok one
  else nearestEnclosed digits false (Enclosure.ofExp x) 10 (digits + 10)

end TexAlgebra.Decimal
