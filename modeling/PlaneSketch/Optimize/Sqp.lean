import PlaneSketch.Optimize.Method

/-!
# Sequential quadratic programming

Each iteration minimises a quadratic model under the linearised constraints and searches along
the step for a decrease of the merit `objective + penalty · ‖residuals‖₁`.  The Hessian of the
model is a damped quasi-Newton approximation that stays positive definite.

* `Sqp.dampedBfgs`: the update of the approximation.
* `Sqp.method`: one iteration.
-/

namespace PlaneSketch.Sqp

open Scalar (larger smaller machineEpsilon)

variable {α : Type} [Scalar α] {n m : Nat}

/-- Where a run stands. -/
structure State (α : Type) (n m : Nat) where
  here : Iterate α n m
  gradient : Vector α n
  jacobian : Mat α m n
  hessian : Mat α n n
  penalty : α

/-- The damped update of `b` for a step `s` along which the gradient changed by `y`.  It is
skipped when the curvature along `s` is not above the machine epsilon. -/
def dampedBfgs (b : Mat α n n) (s y : Vector α n) : Mat α n n :=
  let bs := b.mulVec s
  let sbs := dot s bs
  if sbs ≤ machineEpsilon then b
  else
    let sy := dot s y
    let theta := if 0.2 * sbs ≤ sy then 1 else 0.8 * sbs / (sbs - sy)
    let r := theta * y + (1 - theta) * bs
    let sr := dot s r
    if sr ≤ machineEpsilon then b
    else b + ((Mat.outer r r).map (·.map (· / sr)) - (Mat.outer bs bs).map (·.map (· / sbs)))

/-- The state at the start of a run. -/
def start (config : Config α) (p : Problem α n m) (z : Iterate α n m) : State α n m :=
  { here := z
    gradient := p.gradient config.finiteDifferenceStep z.x
    jacobian := p.jacobian config.finiteDifferenceStep z.x
    hessian := Mat.identity n
    penalty := 1 }

/-- The merit of an iterate under a penalty on the residuals. -/
def merit (penalty : α) (z : Iterate α n m) : α := z.objective + penalty * norm1 z.residuals

/-- The penalty raised above the multipliers, so that a step decreases the merit. -/
def raisePenalty (penalty : α) (multipliers : Vector α m) : α :=
  larger penalty (maxAbs multipliers * 1.1 + 1e-3)

/-- The slope of the merit along a step. -/
def slope (penalty : α) (s : State α n m) (step : Vector α n) : α :=
  dot s.gradient step - penalty * norm1 s.here.residuals

/-- Whether the current iterate is a solution: feasible, and either stationary or with no step
left to make. -/
def isSolution (config : Config α) (s : State α n m) (step : Vector α n)
    (multipliers : Vector α m) : Bool :=
  s.here.violation ≤ scaledTolerance config.constraintTolerance s.here.x &&
    (maxAbs (lagrangianGradient s.gradient s.jacobian multipliers) ≤
        scaledTolerance config.optimalityTolerance s.here.x ||
      isNegligible s.here.x step)

/-- The first iterate along a step whose merit is low enough. -/
def search (p : Problem α n m) (penalty : α) (s : State α n m) (step : Vector α n) :
    Option (Iterate α n m) :=
  let merit0 := merit penalty s.here
  let descent := smaller (slope penalty s step) 0
  backtrack fun fraction =>
    let trial := p.along s.here.x step fraction
    let trialMerit := merit penalty trial
    if Scalar.isFinite trialMerit && trialMerit ≤ merit0 + armijo * fraction * descent then
      some trial
    else none

/-- The state after a successful search. -/
def accept (config : Config α) (p : Problem α n m) (s : State α n m) (penalty : α)
    (multipliers : Vector α m) (z : Iterate α n m) : State α n m :=
  let gradient := p.gradient config.finiteDifferenceStep z.x
  let jacobian := p.jacobian config.finiteDifferenceStep z.x
  let change := lagrangianGradient gradient jacobian multipliers -
    lagrangianGradient s.gradient s.jacobian multipliers
  { here := z, gradient, jacobian, penalty
    hessian := dampedBfgs s.hessian (z.x - s.here.x) change }

/-- One iteration. -/
def iterate (k : Kernel α) (config : Config α) (p : Problem α n m) (s : State α n m) :
    List Note × Decision (State α n m) :=
  match k.solveKkt s.hessian s.jacobian s.gradient s.here.residuals with
  | none => ([.singularSystem], .stuck false)
  | some (direction, multipliers) =>
    match k.withRangeStep s.jacobian s.here.residuals direction with
    | none => ([.singularJacobian], .stuck false)
    | some step =>
      if isSolution config s step multipliers then ([.visited], .converged)
      else
        let penalty := raisePenalty s.penalty multipliers
        match search p penalty s step with
        | some z => ([.visited], .next (accept config p s penalty multipliers z))
        | none =>
          match k.restoreFeasibility p s.here s.jacobian with
          | none => ([.visited, .restoring], .stuck true)
          | some z => ([.visited, .restoring], .next { start config p z with penalty })

def method (k : Kernel α) (config : Config α) (p : Problem α n m) :
    Method α n m (State α n m) :=
  ⟨State.here, iterate k config p⟩

/-- Runs the method from a point. -/
def run (k : Kernel α) (config : Config α) (p : Problem α n m) (x : Vector α n) : Run α n :=
  (method k config p).run config (start config p) (p.at x)

end PlaneSketch.Sqp
