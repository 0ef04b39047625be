import PlaneSketch.Scalar

/-!
# Settings of the solver
-/

namespace PlaneSketch

/-- The method used for the numeric part of a solve. -/
inductive Backend where
  /-- Sequential quadratic programming with a quasi-Newton Hessian. -/
  | sqp
  /-- Newton's method on the optimality conditions, with a filter line search. -/
  | interiorPoint
deriving DecidableEq, Repr

namespace Backend

def name : Backend → String
  | sqp => "sqp"
  | interiorPoint => "interior_point"

def ofName? (name : String) : Option Backend := [sqp, interiorPoint].find? (·.name = name)

end Backend

/-- The settings of a solve. -/
structure Config (α : Type) where
  backend : Backend
  /-- The most iterations that a method makes. -/
  maxIterations : Nat
  /-- The largest absolute residual that counts as satisfied. -/
  constraintTolerance : α
  /-- The largest entry of the gradient of the Lagrangian that counts as stationary. -/
  optimalityTolerance : α
  /-- The relative step of finite differences. -/
  finiteDifferenceStep : α
  /-- Whether the geometry-changed callback runs even if there was nothing to optimise. -/
  notifyWhenDetermined : Bool
deriving Repr

namespace Config

variable {α : Type} [Scalar α]

def default : Config α :=
  { backend := .sqp
    maxIterations := 100
    constraintTolerance := 1e-8
    optimalityTolerance := 1e-6
    finiteDifferenceStep := 1e-6
    notifyWhenDetermined := true }

end Config

end PlaneSketch
