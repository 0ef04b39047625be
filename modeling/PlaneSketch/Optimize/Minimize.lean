import PlaneSketch.Optimize.InteriorPoint
import PlaneSketch.Optimize.Sqp

/-!
# Minimisation

The method that the settings choose, run from a point.
-/

namespace PlaneSketch

/-- Minimises a problem from a starting point by the method that the settings choose. -/
def minimize {α : Type} [Scalar α] {n m : Nat} (k : Kernel α) (config : Config α)
    (p : Problem α n m) (x : Vector α n) : Run α n :=
  match config.backend with
  | .sqp => Sqp.run k config p x
  | .interiorPoint => InteriorPoint.run k config p x

end PlaneSketch
