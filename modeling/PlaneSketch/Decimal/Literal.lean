import PlaneSketch.Decimal.Rounding

/-!
# Decimal literals

A decimal literal is kept as a power of ten and its leading digits, as many as fit in 64 bits.

* `Literal.ofDigits`: the literal with given digits before and after the point.
* `Literal.toFloat`: the leading digits, rounded to a float, times or divided by the power of ten.

The scaling is rounded once more, so a literal of sixteen digits or more may stand for a neighbour of
the float nearest to it.  Up to fifteen digits and powers up to the 22nd, both factors are floats
and the result is the nearest float.
-/

namespace PlaneSketch.Decimal

/-- Whether a number fits in 64 bits. -/
def isWord (n : Nat) : Bool := n < Nat.pow 2 64

/-- The number `± significand · 10 ^ exponent`; `isInteger` says that it was written with neither a
point nor an exponent. -/
structure Literal where
  negative : Bool
  significand : Nat
  exponent : Int
  isInteger : Bool
deriving DecidableEq, Repr

namespace Literal

def ofNat (n : Nat) : Literal := ⟨false, n, 0, true⟩

/-- Writes digits after a number as long as it fits in 64 bits; the number, and how many digits are
left over. -/
def extend (n : Nat) : List Nat → Nat × Nat
  | [] => (n, 0)
  | d :: ds => if isWord (10 * n + d) then extend (10 * n + d) ds else (n, ds.length + 1)

/-- The literal with the given digits, the point if it has a fraction, and the power of ten if it
has one.  Digits left over before the point count as zeros, those after it do not count. -/
def ofDigits (negative : Bool) (whole : List Nat) (fraction : Option (List Nat))
    (power : Option Int) : Literal :=
  let (n, zeros) := extend 0 whole
  let places := fraction.getD []
  let (significand, ignored) := extend n places
  { negative
    significand
    exponent := power.getD 0 + zeros - (places.length - ignored : Nat)
    isInteger := fraction.isNone && power.isNone }

/-- The largest power of ten among the floats. -/
def largestPower : Nat := 308

/-- A power of ten, infinite beyond the floats. -/
def powerOfTen (power : Nat) : Float := Float.ofScientific 1 false (min power (largestPower + 1))

/-- The absolute value as a float, infinite beyond the largest one.  A division by more than the
largest power of ten is done in two steps. -/
def magnitude (n : Literal) : Float :=
  let x := Float.ofNat n.significand
  let power := n.exponent.natAbs
  if n.significand = 0 then 0
  else if 0 ≤ n.exponent then x * powerOfTen power
  else if power ≤ largestPower then x / powerOfTen power
  else x / powerOfTen largestPower / powerOfTen (power - largestPower)

/-- The float of the literal. -/
def toFloat (n : Literal) : Float := if n.negative then -n.magnitude else n.magnitude

/-- The float of the literal, unless it is beyond the floats. -/
def toFinite? (n : Literal) : Option Float := if n.magnitude.isFinite then some n.toFloat else none

/-- The natural number that the literal writes as plain digits, up to 64 bits. -/
def toWord? (n : Literal) : Option Nat :=
  if n.isInteger && !n.negative && n.exponent == 0 && isWord n.significand then some n.significand
  else none

end Literal

end PlaneSketch.Decimal
