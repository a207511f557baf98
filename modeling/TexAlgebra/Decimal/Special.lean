import TexAlgebra.Decimal.Text
/-!
# Special numbers

A text may also spell an infinity or a value that is no number at all. Such a value can be written
out and given a sign, and a few operations on an infinity have a finite result: a quotient by it and
some powers. Everything else with a special number is undefined.
-/

namespace TexAlgebra.Decimal

/-- What a text spells instead of a finite number. -/
inductive Special where
  | infinity (negative : Bool)
  /-- No number at all. A signalling one cannot even be written out. -/
  | nan (negative signalling : Bool) (payload : Nat)
  deriving DecidableEq, Repr, Inhabited

namespace Special

/-! ## Reading -/

/-- The value that is no number with the digits `payload`, of which there may be none. -/
def nanOfChars? (negative signalling : Bool) (payload : List Char) : Option Special :=
  if payload.all isLatinDigit then some (.nan negative signalling (ofDigits payload)) else none

/-- The special value whose name is `word`, in small letters. -/
def ofWord? (negative : Bool) (word : List Char) : Option Special :=
  if word = ['i', 'n', 'f'] ∨ word = ['i', 'n', 'f', 'i', 'n', 'i', 't', 'y'] then
    some (.infinity negative)
  else
    match word with
    | 'n' :: 'a' :: 'n' :: payload => nanOfChars? negative false payload
    | 's' :: 'n' :: 'a' :: 'n' :: payload => nanOfChars? negative true payload
    | _ => none

/-- The special value that a text spells, if it spells one. Capitals count as small letters. -/
def ofText? (text : String) : Option Special :=
  match (spelling text).map Char.toLower with
  | '-' :: word => ofWord? true word
  | '+' :: word => ofWord? false word
  | word => ofWord? false word

/-! ## Writing -/

/-- The text of a special value. -/
def plain : Special → String
  | infinity negative => (if negative then "-" else "") ++ "Infinity"
  | nan negative signalling payload =>
    (if negative then "-" else "") ++ (if signalling then "s" else "") ++ "NaN"
      ++ (if payload = 0 then "" else payload.repr)

/-- The text of a special value as the result of an operation that has to show at least `digits`
digits after the point. A payload loses the digits that exceed the precision of a result. -/
def render (s : Special) (digits : Nat) : Except Signal String :=
  match s with
  | infinity _ => if 0 < digits then .error .invalid else .ok s.plain
  | nan negative signalling payload =>
    if signalling ∨ maxPlaces < digits then .error .invalid
    else .ok (plain (nan negative false (payload % tenTo precision)))

/-! ## Operations -/

/-- The special value under a minus sign. -/
def neg : Special → Special
  | infinity negative => infinity !negative
  | s => s

/-- Fails for a value that cannot be compared with any other. -/
def requireComparable : Special → Except Signal Unit
  | nan _ true _ => .error .invalid
  | _ => .ok ()

/-- Whether a special value counts as a whole number. -/
def isWhole (s : Special) : Except Signal Bool := do
  s.requireComparable
  match s with
  | infinity _ => return true
  | nan _ _ _ => return false

/-- Whether two special values are the same number. -/
def sameValue (s t : Special) : Except Signal Bool := do
  s.requireComparable
  t.requireComparable
  match s, t with
  | infinity a, infinity b => return a == b
  | _, _ => return false

/-- The finite power of a finite number to an infinity, if there is one. -/
def powerToInfinity? (base : Decimal) (negative : Bool) : Option Decimal :=
  if base.isZero then if negative then none else some (ofNat false 0)
  else if base.negative then none
  else if base.sameValue one then some one
  else if (0 ≤ base.leading) == negative then some (ofNat false 0)
  else none

/-- The finite power of an infinity to a finite number, if there is one. -/
def powerOfInfinity? (negative : Bool) (exponent : Decimal) : Option Decimal :=
  if exponent.isZero then some one
  else if negative && !exponent.isWhole then none
  else if exponent.negative then some (ofNat false 0)
  else none

end Special

end TexAlgebra.Decimal
