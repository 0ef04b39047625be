import PlaneSketch.LinearAlgebra.Dense

/-!
# The linear algebra kernel

The two questions about matrices that the optimisation methods leave to others: the solution of
a linear system in the least-squares sense, and whether a symmetric matrix is positive definite.
The methods are written over a `Kernel`, so that nothing about them hangs on how the answers are
computed.
-/

namespace PlaneSketch

/-- The questions about matrices that an optimisation method asks. -/
structure Kernel (α : Type) where
  /-- The vector of least norm among those that minimise `‖a·x - b‖`. -/
  leastSquares {m n : Nat} (a : Mat α m n) (b : Vector α m) : Vector α n
  /-- Whether a symmetric matrix is positive definite. -/
  isPositiveDefinite {n : Nat} (a : Mat α n n) : Bool

end PlaneSketch
