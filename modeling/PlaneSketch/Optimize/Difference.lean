import PlaneSketch.Optimize.Problem

/-!
# Finite differences

Central differences with a step relative to each coordinate.  All stencils are exact on
polynomials of degree two.
-/

namespace PlaneSketch.Problem

variable {α : Type} [Scalar α] {n m : Nat}

/-- The step along a coordinate of value `x`. -/
def relativeStep (step x : α) : α := step * (1 + Scalar.abs x)

/-- The point with one coordinate moved by `amount`. -/
def nudge (x : Vector α n) (i : Fin n) (amount : α) : Vector α n :=
  x.set i (x.get i + amount) i.isLt

/-- The gradient of the objective. -/
def gradient (p : Problem α n m) (step : α) (x : Vector α n) : Vector α n :=
  Vector.ofFn fun j =>
    let h := relativeStep step (x.get j)
    let forward := p.objective (x.set j (x.get j + h) j.isLt)
    let backward := p.objective (x.set j (x.get j - h) j.isLt)
    (forward - backward) / (2.0 * h)

/-- The Jacobian matrix of the residuals. -/
def jacobian (p : Problem α n m) (step : α) (x : Vector α n) : Mat α m n :=
  Mat.transpose <| Vector.ofFn fun j : Fin n =>
    let h := relativeStep step (x.get j)
    let forward := p.residuals (x.set j (x.get j + h) j.isLt)
    let backward := p.residuals (x.set j (x.get j - h) j.isLt)
    (forward - backward).map (· / (2.0 * h))

/-- The objective plus the residuals weighted by the multipliers. -/
def lagrangian (p : Problem α n m) (multipliers : Vector α m) (x : Vector α n) : α :=
  p.objective x + dotInOrder (p.residuals x) multipliers

/-- The second difference of the Lagrangian along two coordinates, which may be the same. -/
def mixedDifference (p : Problem α n m) (multipliers : Vector α m) (step : α) (x : Vector α n)
    (i j : Fin n) : α :=
  let hi := relativeStep step (x.get i)
  let hj := relativeStep step (x.get j)
  let corner := fun di dj => p.lagrangian multipliers (nudge (nudge x i di) j dj)
  (corner hi hj - corner hi (-hj) - corner (-hi) hj + corner (-hi) (-hj)) / (4.0 * hi * hj)

/-- The Hessian matrix of the Lagrangian.  Its step is a hundred times that of the first
derivatives, so that rounding in the four-point stencil stays small. -/
def lagrangianHessian (p : Problem α n m) (multipliers : Vector α m) (step : α)
    (x : Vector α n) : Mat α n n :=
  let upper : Mat α n n := Mat.ofFn fun i j =>
    if i ≤ j then p.mixedDifference multipliers (step * 100.0) x i j else 0
  Mat.ofFn fun i j => if i ≤ j then upper.entry i j else upper.entry j i

end PlaneSketch.Problem
