/-!
# Hexadecimal digits

Digits are written in lower case and read in either case.
-/

namespace PlaneSketch.Hexadecimal

/-- The lower-case digit of a value below 16. -/
def digit (value : Nat) : Char :=
  Char.ofNat (if value < 10 then '0'.toNat + value else 'a'.toNat + (value - 10))

/-- The value of a digit. -/
def digitValue? (c : Char) : Option Nat :=
  if '0' ≤ c ∧ c ≤ '9' then some (c.toNat - '0'.toNat)
  else if 'a' ≤ c ∧ c ≤ 'f' then some (c.toNat - 'a'.toNat + 10)
  else if 'A' ≤ c ∧ c ≤ 'F' then some (c.toNat - 'A'.toNat + 10)
  else none

/-- The last `count` digits of a number, most significant first. -/
def digits : (count number : Nat) → List Char
  | 0, _ => []
  | count + 1, number => digits count (number / 16) ++ [digit (number % 16)]

/-- The number that digits write, unless one of them is no digit. -/
def value? (ds : List Char) : Option Nat :=
  ds.foldlM (fun value c => (digitValue? c).map (16 * value + ·)) 0

end PlaneSketch.Hexadecimal
