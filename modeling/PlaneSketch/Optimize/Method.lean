import PlaneSketch.Optimize.Step

/-!
# Iterative methods

The loop that the optimisation methods share.  A method decides at each state whether the current
iterate is the solution, whether no step can be found, or what the next state is; the loop counts
iterations, keeps the best iterate and collects notes.
-/

namespace PlaneSketch

/-- What an iteration reports on the way. -/
inductive Note where
  /-- The iterate was looked at. -/
  | visited
  | singularSystem
  | singularJacobian
  /-- The Hessian could not be made positive definite. -/
  | inertiaFailed
  /-- The line search found no step, so the residuals are reduced instead. -/
  | restoring
deriving DecidableEq, Repr

/-- What an iteration decides. -/
inductive Decision (σ : Type) where
  /-- The current iterate passes the test of convergence. -/
  | converged
  /-- There is no way on; `counted` says whether the iteration counts as made. -/
  | stuck (counted : Bool)
  | next (state : σ)

/-- A method: the iterate that a state stands at, and one iteration. -/
structure Method (α : Type) (n m : Nat) (σ : Type) where
  here : σ → Iterate α n m
  iterate : σ → List Note × Decision σ

/-- A minimisation with the notes of its iterations. -/
structure Run (α : Type) (n : Nat) where
  minimization : Minimization α n
  notes : List (Nat × Note)

namespace Method

variable {α : Type} [Scalar α] {n m : Nat} {σ : Type}

/-- Iterates from a state, the `index`-th one of the run, at most `budget` times. -/
def loop (method : Method α n m σ) : (budget index : Nat) → σ → Best α n → Run α n
  | 0, index, _, best => ⟨best.toMinimization false index, []⟩
  | budget + 1, index, state, best =>
    let (notes, decision) := method.iterate state
    let noted := notes.map (index, ·)
    match decision with
    | .converged => ⟨(best.offer (method.here state)).toMinimization true index, noted⟩
    | .stuck counted => ⟨best.toMinimization false (index + counted.toNat), noted⟩
    | .next state =>
      let rest := method.loop budget (index + 1) state (best.offer (method.here state))
      { rest with notes := noted ++ rest.notes }

/-- Runs a method from the iterate at a point.  Without variables there is nothing to iterate, and
the run has converged if the residuals are within the tolerance. -/
def run (method : Method α n m σ) (config : Config α) (start : Iterate α n m → σ)
    (z : Iterate α n m) : Run α n :=
  let best := Best.ofIterate z (scaledTolerance config.constraintTolerance z.x)
  if n = 0 then ⟨best.toMinimization (best.violation ≤ best.tolerance) 0, []⟩
  else method.loop config.maxIterations 0 (start z) best

end Method

end PlaneSketch
