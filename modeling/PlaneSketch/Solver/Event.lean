import PlaneSketch.Optimize.Method
import PlaneSketch.Sketch

/-!
# Log events

What editing and solving report on the way, with the level, text and fields of each event.
-/

namespace PlaneSketch

/-- How important an event is. -/
inductive Level where
  | trace
  | debug
  | warn
deriving DecidableEq, Repr

def Level.name : Level → String
  | trace => "trace"
  | debug => "debug"
  | warn => "warn"

/-- What is known of a numeric solve when it is over. -/
structure SolveStats where
  backend : Backend
  degreesOfFreedom : Nat
  residuals : Nat
  iterations : Nat
deriving DecidableEq, Repr

/-- What happened. -/
inductive Event (α : Type) where
  | entitiesRemoved (entities removed replaced : Nat)
  | dragOfFixedPoint (p : PointRef)
  | dragOfUnknownPoint (p : PointRef)
  | solveWhileSolving
  | sketchBorrowed
  | solveSkipped (error : SketchError)
  | determined (residuals inactive : Nat)
  | solved (stats : SolveStats) (inactive : Nat)
  | notConverged (stats : SolveStats) (maxResidual : α)
  | iteration (backend : Backend) (index : Nat) (note : Note)
deriving Repr

/-- The value of a field of an event. -/
inductive FieldValue (α : Type) where
  | count (n : Nat)
  | text (s : String)
  | number (x : α)

namespace Event

variable {α : Type}

def level : Event α → Level
  | entitiesRemoved .. | dragOfFixedPoint _ | determined .. | solved .. => .debug
  | dragOfUnknownPoint _ | sketchBorrowed | solveSkipped _ | notConverged .. => .warn
  | solveWhileSolving | iteration .. => .trace

/-- What a method says about one of its iterations. -/
def noteMessage : Backend → Note → String
  | .sqp, .visited => "sqp iterate"
  | .sqp, .singularSystem => "sqp: singular KKT system"
  | .sqp, .singularJacobian => "sqp: singular constraint Jacobian"
  | .sqp, .inertiaFailed => "sqp: inertia correction failed"
  | .sqp, .restoring => "sqp: line search failed, restoring feasibility"
  | .interiorPoint, .visited => "interior point iterate"
  | .interiorPoint, .singularSystem => "interior point: singular KKT system"
  | .interiorPoint, .singularJacobian => "interior point: singular constraint Jacobian"
  | .interiorPoint, .inertiaFailed => "interior point: inertia correction failed"
  | .interiorPoint, .restoring => "interior point: feasibility restoration"

def message : Event α → String
  | entitiesRemoved .. => "removed sketch entities"
  | dragOfFixedPoint _ => "drag refused, point is fixed"
  | dragOfUnknownPoint _ => "drag refused, unknown point"
  | solveWhileSolving => "solve requested while solving, ignored"
  | sketchBorrowed => "sketch is borrowed elsewhere, solve skipped"
  | solveSkipped _ => "solve skipped"
  | determined .. => "geometry fully determined by substitution"
  | solved .. => "sketch solved"
  | notConverged .. => "solver did not converge, applying best iterate"
  | iteration backend _ note => noteMessage backend note

/-- The named fields of an event. -/
def fields (names : Naming) : Event α → List (String × FieldValue α)
  | entitiesRemoved entities removed replaced =>
    [("entities", .count entities), ("removed", .count removed), ("replaced", .count replaced)]
  | dragOfFixedPoint p | dragOfUnknownPoint p => [("point", .text (p.textWith names.entity))]
  | solveWhileSolving | sketchBorrowed => []
  | solveSkipped error => [("err", .text (error.message names))]
  | determined residuals inactive =>
    [("residuals", .count residuals), ("inactive", .count inactive)]
  | solved stats inactive =>
    [("backend", .text stats.backend.name), ("dof", .count stats.degreesOfFreedom),
     ("residuals", .count stats.residuals), ("inactive", .count inactive),
     ("iterations", .count stats.iterations)]
  | notConverged stats maxResidual =>
    [("backend", .text stats.backend.name), ("dof", .count stats.degreesOfFreedom),
     ("residuals", .count stats.residuals), ("iterations", .count stats.iterations),
     ("max_residual", .number maxResidual)]
  | iteration _ index _ => [("iteration", .count index)]

end Event

end PlaneSketch
