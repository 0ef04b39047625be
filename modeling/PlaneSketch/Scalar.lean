/-!
# Scalars

The operations that the sketch needs of its numbers, without any law.  Every geometric and
numeric definition of the library is written over `Scalar`, so that one definition runs on
machine floats and can be reasoned about over an exact ordered field.

* `Scalar`: field operations, decimal literals, order, square root, absolute value and a test
  for finiteness.  A number `x` with `¬ x ≤ x` is not a number at all (NaN).
* `Angular`: the circular functions, needed by arcs only.
* `larger`, `smaller`: the maximum and minimum that prefer a number over NaN.
-/

namespace PlaneSketch

/-- The operations on coordinates. -/
class Scalar (α : Type) extends Add α, Sub α, Mul α, Div α, Neg α, Zero α, One α, OfScientific α,
    LT α, LE α where
  sqrt : α → α
  abs : α → α
  isFinite : α → Bool
  decidableLT : DecidableLT α
  decidableLE : DecidableLE α

attribute [reducible, instance] Scalar.decidableLT Scalar.decidableLE

/-- The circular functions; `turn` is the angle of a full turn. -/
class Angular (α : Type) extends Scalar α where
  sin : α → α
  cos : α → α
  atan2 : α → α → α
  turn : α

instance : Scalar Float where
  zero := 0
  one := 1
  sqrt := Float.sqrt
  abs := Float.abs
  isFinite := Float.isFinite
  decidableLT := inferInstance
  decidableLE := inferInstance

instance : Angular Float where
  sin := Float.sin
  cos := Float.cos
  atan2 := Float.atan2
  turn := 6.283185307179586

namespace Scalar

variable {α : Type} [Scalar α]

/-- The greater of two numbers; the other one when one of them is NaN. -/
def larger (a b : α) : α :=
  if b ≤ a then a else if b ≤ b then b else a

/-- The lesser of two numbers; the other one when one of them is NaN. -/
def smaller (a b : α) : α :=
  if a ≤ b then a else if b ≤ b then b else a

/-- Tolerance of the geometric predicates: containment, parallelism, sector tests. -/
def tolerance : α := 1e-5

/-- The gap between 1 and the next machine number, `2⁻⁵²`.  Lengths up to it count as zero. -/
def machineEpsilon : α := 1 / 4503599627370496.0

/-- Equality up to `tolerance`. -/
def near (a b : α) : Bool := abs (a - b) < tolerance

end Scalar

end PlaneSketch
