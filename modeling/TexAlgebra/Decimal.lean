/-!
# Decimal numbers

A decimal number is `± coefficient · 10 ^ exponent`. A number as written is exact, however long it
is; the result of an operation is the exact result rounded to `Decimal.precision` significant
digits, a tie going to the even neighbour. `Decimal.nearest` rounds results, and
`Decimal.nearestWith` rounds what an operation goes through on its way, to more digits.

Values of different exponents can be equal, so `Decimal.sameValue` compares the numbers and not
their parts. Exponents may be far apart, and no operation writes out the zeros between them.
-/

namespace TexAlgebra

/-- The decimal number `± coefficient · 10 ^ exponent`; it is below zero if `negative`. -/
structure Decimal where
  negative : Bool
  coefficient : Nat
  exponent : Int
  deriving DecidableEq, Repr, Inhabited

namespace Decimal

/-- Why an operation on decimal numbers has no result. -/
inductive Signal where
  /-- The operation makes no sense for its operands, or its result needs too many digits. -/
  | invalid
  | divisionByZero
  | overflow
  deriving DecidableEq, Repr, Inhabited

/-! ## Limits -/

/-- The number of significant digits of a result. -/
def precision : Nat := 28

/-- The largest exponent of a result in scientific notation. -/
def maxExponent : Int := 999999

/-- The exponent of the smallest positive result. -/
def minExponent : Int := -1000026

/-! ## Parts of a number -/

/-- The power of ten with exponent `n`. -/
def tenTo (n : Nat) : Nat := Nat.pow 10 n

theorem tenTo_zero : tenTo 0 = 1 := rfl

theorem tenTo_succ (n : Nat) : tenTo (n + 1) = tenTo n * 10 := rfl

theorem tenTo_pos (n : Nat) : 0 < tenTo n := Nat.pow_pos (by decide)

/-- The number of decimal digits of `n`; zero has one digit. -/
def digitCount (n : Nat) : Nat := n.repr.length

/-- The exponent of the leading digit of `d`. -/
def leading (d : Decimal) : Int := d.exponent + digitCount d.coefficient - 1

/-- The number of digits after the point when `d` is written out. -/
def places (d : Decimal) : Nat := (-d.exponent).toNat

/-- The whole number `± n`. -/
def ofNat (negative : Bool) (n : Nat) : Decimal := ⟨negative, n, 0⟩

/-- One. -/
def one : Decimal := ofNat false 1

/-- Whether `d` is zero, signed or not. -/
def isZero (d : Decimal) : Bool := d.coefficient == 0

/-- The number `d` without its sign. -/
def magnitude (d : Decimal) : Decimal := { d with negative := false }

/-- The number `d` with the other sign. -/
def flip (d : Decimal) : Decimal := { d with negative := !d.negative }

/-- The number `d` in units of `10 ^ e`, exact where `e` is at most the exponent of `d`. -/
def scaled (d : Decimal) (e : Int) : Int :=
  let n : Int := (d.coefficient * tenTo (d.exponent - e).toNat : Nat)
  if d.negative then -n else n

/-! ## Whole numbers -/

/-- Whether `d` is a whole number, as `2` and `2.0` are. -/
def isWhole (d : Decimal) : Bool :=
  d.isZero || (d.places < digitCount d.coefficient && d.coefficient % tenTo d.places == 0)

/-- The whole number nearest to zero of which `d` is at least as far from zero. -/
def truncate (d : Decimal) : Nat :=
  if d.exponent < 0 then d.coefficient / tenTo d.places
  else d.coefficient * tenTo d.exponent.toNat

/-! ## Rounding -/

/-- `num / den` rounded to the nearest whole number, a tie going to the even neighbour. -/
def roundDiv (num den : Nat) : Nat :=
  let quotient := num / den
  let remainder := num % den
  if 2 * remainder < den then quotient
  else if den < 2 * remainder then quotient + 1
  else quotient + quotient % 2

/-- The exponent of the leading decimal digit of `num / den`. -/
def leadingExponent (num den : Nat) : Int :=
  let guess : Int := (digitCount num : Int) - digitCount den
  if num * tenTo (-guess).toNat < den * tenTo guess.toNat then guess - 1 else guess

/-- The decimal number of the last place `last` that is nearest to `± num / den`. -/
def atPlace (negative : Bool) (num den : Nat) (last : Int) : Decimal :=
  ⟨negative, roundDiv (num * tenTo (-last).toNat) (den * tenTo last.toNat), last⟩

/-- The exponent of the smallest positive number that is kept to `digits` significant digits. -/
def leastExponent (digits : Nat) : Int := -maxExponent - digits + 1

/-- The number of `digits` significant digits that is nearest to `± num / den · 10 ^ exponent`. -/
def nearestWith (digits : Nat) (negative : Bool) (num den : Nat) (exponent : Int) :
    Except Signal Decimal :=
  if num = 0 then .ok ⟨negative, 0, max (leastExponent digits) (min exponent maxExponent)⟩
  else
    let leading := leadingExponent num den
    if maxExponent < leading + exponent then .error .overflow
    else if leading + exponent < leastExponent digits - 1 then
      .ok ⟨negative, 0, leastExponent digits⟩
    else
      let last := max (leading - digits + 1) (leastExponent digits - exponent)
      let d := atPlace negative num den last
      let result := { d with exponent := d.exponent + exponent }
      if maxExponent < result.leading then .error .overflow else .ok result

/-- The result of an operation whose exact result is `± num / den · 10 ^ exponent`. -/
def nearest (negative : Bool) (num den : Nat) (exponent : Int) : Except Signal Decimal :=
  nearestWith precision negative num den exponent

/-- The number `d` rounded to the precision of a result. -/
def rounded (d : Decimal) : Except Signal Decimal :=
  nearest d.negative d.coefficient 1 d.exponent

/-- `c · 10 ^ e` with as few digits as possible, given that `fuel` bounds the number of digits. -/
def stripZeros : Nat → Nat → Int → Nat × Int
  | 0, c, e => (c, e)
  | fuel + 1, c, e => if c % 10 = 0 then stripZeros fuel (c / 10) (e + 1) else (c, e)

/-- The number `d` without zeros at the end of its coefficient; zero gets the exponent zero. -/
def stripped (d : Decimal) : Decimal :=
  if d.coefficient = 0 then { d with exponent := 0 }
  else
    let (c, e) := stripZeros (digitCount d.coefficient) d.coefficient d.exponent
    ⟨d.negative, c, e⟩

/-- The number `d` rounded to the precision of a result and without zeros at the end. -/
def normalized (d : Decimal) : Except Signal Decimal := stripped <$> d.rounded

/-- The largest number of digits after the point that can be asked for. -/
def maxPlaces : Nat := 2000054

/-- The number `d` written with exactly `places` digits after the point, or with as many as the
smallest positive result has if that is less. This is invalid if the result has more digits than the
precision allows. -/
def withPlaces (d : Decimal) (places : Nat) : Except Signal Decimal :=
  let shown := min places (-minExponent).toNat
  if maxPlaces < places then .error .invalid
  else if d.coefficient = 0 then .ok ⟨d.negative, 0, -shown⟩
  else if precision < d.leading + shown + 1 then .error .invalid
  else
    let c :=
      if -(shown : Int) ≤ d.exponent then d.coefficient * tenTo (d.exponent + shown).toNat
      else roundDiv d.coefficient (tenTo (-(shown : Int) - d.exponent).toNat)
    if precision < digitCount c then .error .invalid else .ok ⟨d.negative, c, -shown⟩

/-! ## Comparison -/

/-- The one form of all numbers that have the value of `d`. -/
def canonical (d : Decimal) : Decimal := if d.isZero then ofNat false 0 else d.stripped

/-- Whether two decimal numbers have the same value. -/
def sameValue (a b : Decimal) : Bool := a.canonical == b.canonical

/-! ## Arithmetic -/

/-- The number `small`, or a number of its sign that is nearer in size to `large`. The other number
is taken where `small` lies so far below all digits of `large` and of a result that it cannot change
more of the rounded sum than on which side of `large` the sum lies. -/
def drawnTo (small large : Decimal) : Decimal :=
  let last := min large.exponent (large.leading - precision)
  if small.leading + 3 < last then ⟨small.negative, 1, last - 3⟩ else small

/-- The sum of two numbers, of which neither is zero and the first does not lead with a lower digit.
-/
def addBelow (large small : Decimal) : Except Signal Decimal :=
  let small := small.drawnTo large
  let e := min large.exponent small.exponent
  let n := large.scaled e + small.scaled e
  nearest (n < 0) n.natAbs 1 e

/-- The sum of `a` and `b`. -/
def add (a b : Decimal) : Except Signal Decimal :=
  if a.isZero then b.rounded
  else if b.isZero then a.rounded
  else if a.leading < b.leading then addBelow b a
  else addBelow a b

/-- The difference of `a` and `b`. -/
def sub (a b : Decimal) : Except Signal Decimal := add a b.flip

/-- The product of `a` and `b`. -/
def mul (a b : Decimal) : Except Signal Decimal :=
  nearest (a.negative != b.negative) (a.coefficient * b.coefficient) 1 (a.exponent + b.exponent)

/-- The quotient of `a` and `b`; nothing is divided by zero, and zero by zero makes no sense. -/
def div (a b : Decimal) : Except Signal Decimal :=
  if b.isZero then .error (if a.isZero then .invalid else .divisionByZero)
  else nearest (a.negative != b.negative) a.coefficient b.coefficient (a.exponent - b.exponent)

/-- The number `d` under a plus sign, which rounds it. -/
def pos (d : Decimal) : Except Signal Decimal := d.rounded

/-- The number `d` under a minus sign, which rounds it too. -/
def neg (d : Decimal) : Except Signal Decimal := d.flip.rounded

end Decimal

end TexAlgebra
