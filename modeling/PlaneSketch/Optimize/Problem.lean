import PlaneSketch.Config
import PlaneSketch.LinearAlgebra.Kernel

/-!
# Problems and iterates

Minimise an objective subject to residuals that must be zero.

* `Problem`, `Iterate`: the functions, and a point together with their values there.
* `Best`: the best point of a run.  Feasible beats infeasible; of two feasible points the lower
  objective wins, then the lower violation; of two infeasible ones the lower violation.
* `Minimization`: what a run gives back.
-/

namespace PlaneSketch

/-- Minimise `objective x` subject to `residuals x = 0`. -/
structure Problem (α : Type) (n m : Nat) where
  objective : Vector α n → α
  residuals : Vector α n → Vector α m

/-- A point with its objective and residuals. -/
structure Iterate (α : Type) (n m : Nat) where
  x : Vector α n
  objective : α
  residuals : Vector α m

namespace Iterate

variable {α : Type} [Scalar α] {n m : Nat}

/-- The largest absolute residual. -/
def violation (z : Iterate α n m) : α := maxAbs z.residuals

end Iterate

/-- The iterate at a point. -/
def Problem.at {α : Type} {n m : Nat} (p : Problem α n m) (x : Vector α n) : Iterate α n m :=
  ⟨x, p.objective x, p.residuals x⟩

/-- A tolerance scaled to the magnitude of a point, as the finite-difference steps are. -/
def scaledTolerance {α : Type} [Scalar α] {n : Nat} (tolerance : α) (x : Vector α n) : α :=
  tolerance * (1 + maxAbs x)

/-- The best point seen; a violation up to `tolerance` counts as feasible. -/
structure Best (α : Type) (n : Nat) where
  x : Vector α n
  objective : α
  violation : α
  tolerance : α

namespace Best

variable {α : Type} [Scalar α] {n m : Nat}

def ofIterate (z : Iterate α n m) (tolerance : α) : Best α n :=
  ⟨z.x, z.objective, z.violation, tolerance⟩

/-- Whether a point with this objective and violation is better than the best one so far. -/
def isBeatenBy (b : Best α n) (objective violation : α) : Bool :=
  match decide (violation ≤ b.tolerance), decide (b.violation ≤ b.tolerance) with
  | true, false => true
  | false, true => false
  | true, true =>
    objective < b.objective ||
      (objective ≤ b.objective && b.objective ≤ objective && violation < b.violation)
  | false, false => violation < b.violation

/-- The better one of the best point so far and another point. -/
def offer (b : Best α n) (z : Iterate α n m) : Best α n :=
  if b.isBeatenBy z.objective z.violation then ofIterate z b.tolerance else b

end Best

/-- The outcome of a run; `x` is the best point seen, converged or not. -/
structure Minimization (α : Type) (n : Nat) where
  x : Vector α n
  converged : Bool
  iterations : Nat
  objective : α
  maxResidual : α

def Best.toMinimization {α : Type} {n : Nat} (b : Best α n) (converged : Bool)
    (iterations : Nat) : Minimization α n :=
  ⟨b.x, converged, iterations, b.objective, b.violation⟩

end PlaneSketch
