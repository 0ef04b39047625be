/-!
# Rounded decimals

Exact decimal text of binary numbers: a finite float is an integer times a power of two, and its
digits are those of the rounded quotient of two integers.

* `roundDiv`: a quotient rounded to the nearest integer, a tie to the even one.
* `Binary.ofFloat?`: the integer and the power of two of a finite float.
* `fixed`, `scientific`: digits after the point, or one digit before it and a power of ten.
* `Style.render`: the text of any float under a choice between the two.
-/

namespace PlaneSketch.Decimal

/-- The quotient rounded to the nearest integer, a tie to the even one. -/
def roundDiv (num den : Nat) : Nat :=
  let quotient := num / den
  let twice := 2 * (num % den)
  if twice < den then quotient
  else if den < twice then quotient + 1
  else quotient + quotient % 2

/-- A number `± mantissa · 2 ^ exponent`. -/
structure Binary where
  negative : Bool
  mantissa : Nat
  exponent : Int
deriving DecidableEq, Repr

namespace Binary

/-- The exact value of a finite float; none for infinities and NaN. -/
def ofFloat? (x : Float) : Option Binary :=
  let bits : Nat := x.toBits.toNat
  let negative := Nat.pow 2 63 ≤ bits
  let field : Nat := bits / Nat.pow 2 52 % Nat.pow 2 11
  let fraction : Nat := bits % Nat.pow 2 52
  if field = 2047 then none
  else if field = 0 then some ⟨negative, fraction, -1074⟩
  else some ⟨negative, Nat.pow 2 52 + fraction, (field : Int) - 1075⟩

/-- The numerator and denominator of the absolute value. -/
def ratio (b : Binary) : Nat × Nat :=
  (b.mantissa * Nat.pow 2 b.exponent.toNat, Nat.pow 2 (-b.exponent).toNat)

end Binary

/-- The decimal digits of a number. -/
def digits (n : Nat) : List Char := Nat.toDigits 10 n

/-- The digits of a number, with zeros in front up to a length. -/
def padded (length n : Nat) : List Char :=
  List.replicate (length - (digits n).length) '0' ++ digits n

/-- The digits of `n / 10 ^ places`, with a point before the last `places` digits. -/
def pointed (places n : Nat) : String :=
  let all := padded (places + 1) n
  let whole := all.take (all.length - places)
  if places = 0 then String.ofList whole
  else String.ofList (whole ++ '.' :: all.drop (all.length - places))

/-- The text with a minus sign in front if asked for. -/
def signed (negative : Bool) (text : String) : String := if negative then "-" ++ text else text

/-- The number with `places` digits after the point; without a sign if all digits are zero. -/
def fixed (places : Nat) (b : Binary) : String :=
  let (num, den) := b.ratio
  let n := roundDiv (num * Nat.pow 10 places) den
  signed (b.negative && n != 0) (pointed places n)

/-- The power of ten of the first digit of a positive quotient. -/
def leadingExponent (num den : Nat) : Int :=
  if den ≤ num then ((digits (num / den)).length : Int) - 1
  else -((digits ((den - 1) / num)).length : Int)

/-- A positive quotient as an integer of `places + 1` digits and the power of ten of the first. -/
def significant (places num den : Nat) : Nat × Int :=
  let exponent := leadingExponent num den
  let power := (places : Int) - exponent
  let n := roundDiv (num * Nat.pow 10 power.toNat) (den * Nat.pow 10 (-power).toNat)
  if n < Nat.pow 10 (places + 1) then (n, exponent) else (n / 10, exponent + 1)

/-- The number with one digit before the point, `places` digits after it and a power of ten. -/
def scientific (places : Nat) (b : Binary) : String :=
  let (num, den) := b.ratio
  let (n, exponent) := if num = 0 then (0, 0) else significant places num den
  signed (b.negative && n != 0) (pointed places n ++ "e" ++ toString exponent)

/-- When a number is written with a fixed number of places and when with a power of ten. -/
structure Style where
  fixedPlaces : Nat
  /-- Absolute values below this bound have fixed places. -/
  fixedBelow : Nat
  scientificPlaces : Nat
  /-- Whether zero is the single digit 0. -/
  plainZero : Bool
deriving DecidableEq, Repr

/-- The text of a finite number. -/
def Style.renderFinite (style : Style) (b : Binary) : String :=
  if style.plainZero && b.mantissa == 0 then "0"
  else if b.ratio.1 < style.fixedBelow * b.ratio.2 then fixed style.fixedPlaces b
  else scientific style.scientificPlaces b

/-- The text of a float. -/
def Style.render (style : Style) (x : Float) : String :=
  match Binary.ofFloat? x with
  | some b => style.renderFinite b
  | none => if x.isNaN then "nan" else if 0 < x then "inf" else "-inf"

end PlaneSketch.Decimal
