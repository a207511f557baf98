import TexAlgebra.Decimal
import TexAlgebra.Text.Character
/-!
# Reading and writing decimal numbers

`ofText?` reads a number exactly as it is written, with an optional sign, point and power of ten,
and `plain` writes one out without a power of ten. Underscores in a number are ignored, and digits
of any script are taken.
-/

namespace TexAlgebra.Decimal

/-- The digit of any script as one of `0` to `9`; other characters stay as they are. -/
def latinDigit (c : Char) : Char :=
  match Text.decimalValue? c with
  | some n => Char.ofNat ('0'.toNat + n)
  | none => c

/-- Whether `c` is one of `0` to `9`. -/
def isLatinDigit (c : Char) : Bool := '0' ≤ c ∧ c ≤ '9'

/-- The number that a run of digits spells. -/
def ofDigits (digits : List Char) : Nat :=
  digits.foldl (fun n c => 10 * n + (c.toNat - '0'.toNat)) 0

/-- The whole number that digits with an optional sign in front spell. -/
def wholeOfChars? (cs : List Char) : Option Int :=
  let unsigned (ds : List Char) : Option Nat :=
    if ds ≠ [] ∧ ds.all isLatinDigit then some (ofDigits ds) else none
  match cs with
  | '-' :: ds => (unsigned ds).map fun n => -(n : Int)
  | '+' :: ds => (unsigned ds).map Int.ofNat
  | ds => (unsigned ds).map Int.ofNat

/-- The power of ten that ends a number; nothing stands for the zeroth. -/
def powerOfChars? (cs : List Char) : Option Int :=
  match cs with
  | [] => some 0
  | c :: cs => if c = 'e' ∨ c = 'E' then wholeOfChars? cs else none

/-- The number, below zero if `negative`, whose digits, point and power of ten are `cs`. -/
def unsignedOfChars? (negative : Bool) (cs : List Char) : Option Decimal :=
  let whole := cs.takeWhile isLatinDigit
  let rest := cs.drop whole.length
  let fraction := match rest with
    | '.' :: r => r.takeWhile isLatinDigit
    | _ => []
  let rest := match rest with
    | '.' :: r => r.drop fraction.length
    | r => r
  if whole = [] ∧ fraction = [] then none
  else (powerOfChars? rest).map fun e =>
    ⟨negative, ofDigits (whole ++ fraction), e - fraction.length⟩

/-- The number that `cs` spells. -/
def ofChars? (cs : List Char) : Option Decimal :=
  match cs with
  | '-' :: r => unsignedOfChars? true r
  | '+' :: r => unsignedOfChars? false r
  | r => unsignedOfChars? false r

/-- The characters of a text that count for the number that it spells. -/
def spelling (text : String) : List Char :=
  ((Text.trim text).toList.filter (· ≠ '_')).map latinDigit

/-- Whether the exponents of `d` are small enough for a number to be written with them. -/
def isWithinLimits (d : Decimal) : Bool :=
  -1999999999999999997 ≤ d.exponent
    && (if d.isZero then d.exponent else d.leading) ≤ 999999999999999999

/-- The number that a text spells, if it spells one. -/
def ofText? (text : String) : Option Decimal :=
  (ofChars? (spelling text)).filter isWithinLimits

/-- The digits of `n`, at least `width` of them. -/
def paddedDigits (n width : Nat) : List Char :=
  let digits := n.repr.toList
  List.replicate (width - digits.length) '0' ++ digits

/-- The digits of `d` with its point and without its sign. -/
def plainDigits (d : Decimal) : List Char :=
  if d.exponent < 0 then
    let digits := paddedDigits d.coefficient (d.places + 1)
    let whole := digits.length - d.places
    digits.take whole ++ '.' :: digits.drop whole
  else if d.coefficient = 0 then ['0']
  else d.coefficient.repr.toList ++ List.replicate d.exponent.toNat '0'

/-- The number written out, without a power of ten. -/
def plain (d : Decimal) : String :=
  String.ofList (if d.negative then '-' :: d.plainDigits else d.plainDigits)

/-- The number written out with at least `digits` digits after the point, and as many more as its
value needs. A zero has no sign. -/
def render (d : Decimal) (digits : Nat) : Except Signal String := do
  let short ← d.normalized
  let shown ← if short.places < digits then d.withPlaces digits else pure short
  return plain (if shown.isZero then shown.magnitude else shown)

end TexAlgebra.Decimal
