import PlaneSketch.Optimize.Minimize
import PlaneSketch.Solver.Event

/-!
# Solving a sketch

One solve: tie coordinates, bind the remaining equations, run the numeric method on the free
variables, write its result back.  All that can fail comes first, so a solve that fails has
changed nothing.

* `Solve.bindAll`: the equations that are left and the number of inactive constraints.
* `Solve.problem`: the numeric problem; each evaluation depends on the variables alone.
* `Solve.run`: the whole solve.
-/

namespace PlaneSketch

/-- Statistics of a solve. -/
structure SolveReport (α : Type) where
  backend : Backend
  degreesOfFreedom : Nat
  residuals : Nat
  iterations : Nat
  converged : Bool
  maxResidual : α
deriving Repr

/-- What a completed solve leaves behind. -/
structure Solved (α : Type) where
  sketch : Sketch α
  report : SolveReport α
  events : List (Event α)
  /-- Whether the geometry-changed callback is to run. -/
  notify : Bool

namespace Solve

variable {α : Type} [Scalar α]

/-- The equations of the constraints that have something left to adjust, in order, and the number
of those that have not. -/
def bindAll (g : Geometry α) (l : Linkage α) :
    List (Constraint α) → Except SketchError (List (Residual α) × Nat)
  | [] => .ok ([], 0)
  | c :: rest =>
    if l.isInactive g c then
      (bindAll g l rest).map fun (residuals, inactive) => (residuals, inactive + 1)
    else do
      let bound ← Residual.bind g c.kind c.operands
      let (residuals, inactive) ← bindAll g l rest
      return (bound.toList ++ residuals, inactive)

/-- The dragged point: its canonical index and where it was dropped. -/
def snapshot? (g : Geometry α) (active : Option PointRef) : Option (Nat × Vec2 α) := do
  let index ← active >>= g.pointIndex?
  let target ← g.pointAt? index
  return (index, target)

/-- The squared distance of the dragged point from where it was dropped. -/
def objective (active : Option (Nat × Vec2 α)) (g : Geometry α) : α :=
  match active with
  | some (index, target) => ((g.pointAt? index).map fun p => (p - target).normSq).getD 0
  | none => 0

/-- The values of equations on a geometry. -/
def residualValues (residuals : List (Residual α)) (g : Geometry α) :
    Vector α residuals.length :=
  ⟨(residuals.map (·.value g)).toArray, by simp⟩

/-- The numeric problem over the variables of a linkage. -/
def problem (g : Geometry α) (l : Linkage α) (residuals : List (Residual α))
    (active : Option (Nat × Vec2 α)) (n : Nat) : Problem α n residuals.length :=
  let places := l.places
  let free := l.freeCount
  let geometryAt := fun x : Vector α n => Linkage.place places free g x.toArray
  { objective := fun x =>
      match active with
      | some _ => objective active (geometryAt x)
      | none => 0
    residuals := fun x => residualValues residuals (geometryAt x) }

/-- The outcome when there is nothing to optimise. -/
def determined (config : Config α) (s : Sketch α) (residuals : List (Residual α))
    (inactive : Nat) : Solved α :=
  let maxResidual := maxAbs (residualValues residuals s.geometry)
  { sketch := s
    report :=
      { backend := config.backend
        degreesOfFreedom := 0
        residuals := residuals.length
        iterations := 0
        converged := maxResidual ≤ config.constraintTolerance
        maxResidual }
    events := [.determined residuals.length inactive]
    notify := config.notifyWhenDetermined }

/-- The event that ends a numeric solve. -/
def outcomeEvent (stats : SolveStats) (inactive : Nat) (converged : Bool) (maxResidual : α) :
    Event α :=
  if converged then .solved stats inactive else .notConverged stats maxResidual

/-- The outcome of a numeric solve, given the sketch with its result written back. -/
def optimised {n : Nat} (config : Config α) (s : Sketch α) (residuals inactive : Nat)
    (r : Run α n) : Solved α :=
  let stats : SolveStats := ⟨config.backend, n, residuals, r.minimization.iterations⟩
  { sketch := s
    report :=
      { backend := config.backend
        degreesOfFreedom := n
        residuals
        iterations := r.minimization.iterations
        converged := r.minimization.converged
        maxResidual := r.minimization.maxResidual }
    events :=
      r.notes.map (fun (index, note) => .iteration config.backend index note) ++
        [outcomeEvent stats inactive r.minimization.converged r.minimization.maxResidual]
    notify := true }

/-- Solves a sketch.  With `active` set, that point is kept as close as possible to where it
is. -/
def run (k : Kernel α) (config : Config α) (s : Sketch α) (active : Option PointRef) :
    Except SketchError (Solved α) := do
  let target := snapshot? s.geometry active
  let linkage ← Linkage.build s.geometry s.constraints.items active
  let (residuals, inactive) ← bindAll s.geometry linkage s.constraints.items
  let constraints := s.constraints.refreshCounters inactive
  let guess := linkage.gather s.geometry
  let writeBack := fun vars => Sketch.mk (linkage.scatter s.geometry vars) constraints
  if guess.size = 0 then
    return determined config (writeBack guess) residuals inactive
  else
    let result := minimize k config (problem s.geometry linkage residuals target guess.size)
      guess.toVector
    return optimised config (writeBack result.minimization.x.toArray) residuals.length inactive
      result

end Solve

end PlaneSketch
