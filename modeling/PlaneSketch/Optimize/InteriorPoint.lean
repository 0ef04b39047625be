import PlaneSketch.Optimize.Filter
import PlaneSketch.Optimize.Method

/-!
# Newton's method with a filter

Without inequalities an interior-point method has no barrier: each iteration is a Newton step on
the optimality conditions, with the Hessian of the Lagrangian from finite differences, shifted
until it is positive definite, and a line search that a filter over violation and objective
controls.  When the filter blocks every step the residuals are reduced instead.

* `InteriorPoint.correctInertia`: the shift of the Hessian.
* `InteriorPoint.method`: one iteration.
-/

namespace PlaneSketch.InteriorPoint

open Scalar (larger)

variable {α : Type} [Scalar α] {n m : Nat}

/-! ## Inertia correction -/

/-- The shift tried first. -/
def firstShift : α := 1e-4

def minShift : α := 1e-20

def maxShift : α := 1e20

/-- The factor from one shift to the next. -/
def shiftGrowth : α := 8.0

/-- From `minShift` on, this many shifts reach beyond `maxShift`. -/
def shiftCount : Nat := 46

/-- The first of `count` growing shifts up to `maxShift` that makes a matrix positive definite,
with the shifted matrix. -/
def shiftFrom (k : Kernel α) (h : Mat α n n) : (count : Nat) → (delta : α) →
    Option (Mat α n n × α)
  | 0, _ => none
  | count + 1, delta =>
    if delta ≤ maxShift then
      if k.isPositiveDefinite (h.shift delta) then some (h.shift delta, delta)
      else shiftFrom k h count (delta * shiftGrowth)
    else none

/-- The matrix shifted until it is positive definite, and the shift; `last` is the shift of the
iteration before, zero if there was none. -/
def correctInertia (k : Kernel α) (h : Mat α n n) (last : α) : Option (Mat α n n × α) :=
  if k.isPositiveDefinite h then some (h, 0)
  else
    shiftFrom k h shiftCount
      (if last ≤ 0 ∧ 0 ≤ last then firstShift else larger (last / 3.0) minShift)

/-! ## The method -/

/-- Where a run stands. -/
structure State (α : Type) (n m : Nat) where
  here : Iterate α n m
  gradient : Vector α n
  jacobian : Mat α m n
  multipliers : Vector α m
  filter : Filter α
  lastShift : α
  /-- Below this violation, steps that decrease the objective have to do so enough. -/
  smallViolation : α

/-- The state at the start of a run. -/
def start (k : Kernel α) (config : Config α) (p : Problem α n m) (z : Iterate α n m) :
    State α n m :=
  let gradient := p.gradient config.finiteDifferenceStep z.x
  let jacobian := p.jacobian config.finiteDifferenceStep z.x
  let theta := larger (norm1 z.residuals) 1
  { here := z, gradient, jacobian
    multipliers := k.leastSquaresMultipliers jacobian gradient
    filter := Filter.add [] (1e4 * theta) none
    lastShift := 0
    smallViolation := 1e-4 * theta }

/-- Whether the current iterate is feasible. -/
def isFeasible (config : Config α) (s : State α n m) : Bool :=
  s.here.violation ≤ scaledTolerance config.constraintTolerance s.here.x

/-- Whether the gradient of the Lagrangian vanishes at the current iterate. -/
def isStationary (config : Config α) (s : State α n m) : Bool :=
  maxAbs (lagrangianGradient s.gradient s.jacobian s.multipliers) ≤
    scaledTolerance config.optimalityTolerance s.here.x

/-- Whether a step aims at the objective: it descends from an almost feasible iterate. -/
def aimsAtObjective (s : State α n m) (step : Vector α n) : Bool :=
  dot s.gradient step < 0 && norm1 s.here.residuals ≤ s.smallViolation

/-- Whether a trial a fraction of the way along a step decreases enough what the step aims at. -/
def decreasesEnough (s : State α n m) (step : Vector α n) (fraction : α)
    (trial : Iterate α n m) : Bool :=
  let theta := norm1 s.here.residuals
  if aimsAtObjective s step then
    trial.objective ≤ s.here.objective + armijo * fraction * dot s.gradient step
  else
    norm1 trial.residuals ≤ (1 - Filter.margin) * theta ||
      trial.objective ≤ s.here.objective - Filter.margin * theta

/-- The first iterate along a step that the filter admits and that decreases enough, with its
fraction of the step. -/
def search (p : Problem α n m) (s : State α n m) (step : Vector α n) :
    Option (α × Iterate α n m) :=
  backtrack fun fraction =>
    let trial := p.along s.here.x step fraction
    if Scalar.isFinite trial.objective &&
        s.filter.acceptable (norm1 trial.residuals) trial.objective &&
        decreasesEnough s step fraction trial then
      some (fraction, trial)
    else none

/-- The filter with the current iterate entered. -/
def entered (s : State α n m) : Filter α :=
  s.filter.add (norm1 s.here.residuals) (some s.here.objective)

/-- The state at a new iterate, with derivatives taken there. -/
def moveTo (config : Config α) (p : Problem α n m) (s : State α n m) (z : Iterate α n m) :
    State α n m :=
  { s with
    here := z
    gradient := p.gradient config.finiteDifferenceStep z.x
    jacobian := p.jacobian config.finiteDifferenceStep z.x }

/-- The state after a successful search. -/
def accept (config : Config α) (p : Problem α n m) (s : State α n m) (step : Vector α n)
    (newMultipliers : Vector α m) (fraction : α) (z : Iterate α n m) : State α n m :=
  { moveTo config p s z with
    filter := if aimsAtObjective s step then s.filter else entered s
    multipliers := s.multipliers + fraction * (newMultipliers - s.multipliers) }

/-- The state after the residuals were reduced. -/
def restored (k : Kernel α) (config : Config α) (p : Problem α n m) (s : State α n m)
    (z : Iterate α n m) : State α n m :=
  let moved := moveTo config p s z
  { moved with
    filter := entered s
    multipliers := k.leastSquaresMultipliers moved.jacobian moved.gradient }

/-- One iteration. -/
def iterate (k : Kernel α) (config : Config α) (p : Problem α n m) (s : State α n m) :
    List Note × Decision (State α n m) :=
  if isFeasible config s && isStationary config s then ([.visited], .converged)
  else
    let hessian := p.lagrangianHessian s.multipliers config.finiteDifferenceStep s.here.x
    match correctInertia k hessian s.lastShift with
    | none => ([.visited, .inertiaFailed], .stuck false)
    | some (hessian, shift) =>
      let s := { s with lastShift := shift }
      match k.solveKkt hessian s.jacobian s.gradient s.here.residuals with
      | none => ([.visited, .singularSystem], .stuck false)
      | some (direction, newMultipliers) =>
        match k.withRangeStep s.jacobian s.here.residuals direction with
        | none => ([.visited, .singularJacobian], .stuck false)
        | some step =>
          if isFeasible config s && isNegligible s.here.x step then
            ([.visited], .converged)
          else
            match search p s step with
            | some (fraction, z) =>
              ([.visited], .next (accept config p s step newMultipliers fraction z))
            | none =>
              match k.restoreFeasibility p s.here s.jacobian with
              | none => ([.visited, .restoring], .stuck true)
              | some z => ([.visited, .restoring], .next (restored k config p s z))

def method (k : Kernel α) (config : Config α) (p : Problem α n m) :
    Method α n m (State α n m) :=
  ⟨State.here, iterate k config p⟩

/-- Runs the method from a point. -/
def run (k : Kernel α) (config : Config α) (p : Problem α n m) (x : Vector α n) : Run α n :=
  (method k config p).run config (start k config p) (p.at x)

end PlaneSketch.InteriorPoint
