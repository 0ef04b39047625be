import PlaneSketch.Optimize.Difference

/-!
# Steps

What both optimisation methods share: the Newton step on the optimality conditions, its
correction towards the constraints, and the search along a direction.

* `Kernel.solveKkt`: the step and the multipliers of the quadratic model.
* `Kernel.withRangeStep`: the step with its part across the constraints replaced.
* `backtrack`: tries the step fractions 1, 1/2, 1/4, … in turn.
* `Kernel.restoreFeasibility`: a Gauss–Newton step towards the constraints.
-/

namespace PlaneSketch

/-! ## The linear systems -/

namespace Kernel

variable {α : Type} [Scalar α] {n m : Nat}

/-- Solves the system with rows `H·p + Aᵀ·λ = -g` and `A·p = -c` in the least-squares sense, so
that redundant rows of `A` are tolerated; none if the solution is not finite. -/
def solveKkt (k : Kernel α) (h : Mat α n n) (a : Mat α m n) (g : Vector α n) (c : Vector α m) :
    Option (Vector α n × Vector α m) :=
  let system := Mat.blocks h a.transpose a (0 : Mat α m m)
  let solution := k.leastSquares system (-g ++ -c)
  if allFinite solution then
    some (Vector.ofFn fun i => solution[i.castAdd m], Vector.ofFn fun i => solution[i.natAdd n])
  else none

/-- The step `p` with its range-space part replaced by the least-norm Newton step `A⁺·(-c)`, its
null-space part kept; none if the result is not finite.  The correction of the residuals then
hangs on `A` alone and not on the scale of the Hessian. -/
def withRangeStep (k : Kernel α) (a : Mat α m n) (c : Vector α m) (p : Vector α n) :
    Option (Vector α n) :=
  if m = 0 then some p
  else
    let newton := k.leastSquares a (-c)
    let range := k.leastSquares a (a.mulVec p)
    let step := newton + p - range
    if allFinite step then some step else none

/-- The multipliers that minimise `‖g + Aᵀ·λ‖`. -/
def leastSquaresMultipliers (k : Kernel α) (a : Mat α m n) (g : Vector α n) : Vector α m :=
  k.leastSquares a.transpose (-g)

end Kernel

variable {α : Type} [Scalar α] {n m : Nat}

/-- The gradient of the Lagrangian, from the gradient of the objective, the Jacobian matrix of the
residuals and the multipliers. -/
def lagrangianGradient (g : Vector α n) (a : Mat α m n) (multipliers : Vector α m) :
    Vector α n :=
  g + a.transpose.mulVec multipliers

/-- Whether a step hardly moves a point. -/
def isNegligible (x step : Vector α n) : Bool := maxAbs step ≤ 1e-12 * (1 + maxAbs x)

/-! ## Searching along a direction -/

/-- The share of the predicted decrease that a step has to reach. -/
def armijo : α := 1e-4

/-- The number of fractions tried: the powers of one half that are not below `10⁻¹⁰`. -/
def fractionCount : Nat := 34

/-- The first success among `count` fractions, each half of the one before. -/
def backtrackFrom {β : Type} (attempt : α → Option β) : (count : Nat) → (fraction : α) → Option β
  | 0, _ => none
  | count + 1, fraction =>
    match attempt fraction with
    | some result => some result
    | none => backtrackFrom attempt count (fraction * 0.5)

/-- The first success among the step fractions 1, 1/2, 1/4, …. -/
def backtrack {β : Type} (attempt : α → Option β) : Option β :=
  backtrackFrom attempt fractionCount 1

/-- The iterate a fraction of the way along a step. -/
def Problem.along (p : Problem α n m) (x step : Vector α n) (fraction : α) : Iterate α n m :=
  p.at (x + fraction * step)

/-- A Gauss–Newton step on the residuals, shortened until their sum of absolute values falls. -/
def Kernel.restoreFeasibility (k : Kernel α) (p : Problem α n m) (z : Iterate α n m)
    (a : Mat α m n) : Option (Iterate α n m) :=
  let step := k.leastSquares a (-z.residuals)
  let theta := norm1 z.residuals
  backtrack fun fraction =>
    let trial := p.along z.x step fraction
    if Scalar.isFinite trial.objective &&
        norm1 trial.residuals < (1 - armijo * fraction) * theta then
      some trial
    else none

end PlaneSketch
