import PlaneSketch.Config
import PlaneSketch.Json.Reader

/-!
# Reading settings

Settings as JSON: an object whose unknown fields are passed over, or an array of the fields in
order.  Missing fields keep their defaults; a field of the wrong type, or one that is repeated,
makes the settings invalid.
-/

namespace PlaneSketch.Config

/-- The names of the settings, in order. -/
def fieldNames : List String :=
  ["backend", "max_iterations", "constraint_tolerance", "optimality_tolerance",
   "finite_difference_step", "notify_when_determined"]

/-- A setting: the default if it is missing, else what its value reads as. -/
def setting {β : Type} (standard : β) (read : Json → Option β) : Option Json → Option β
  | none => some standard
  | some j => read j

/-- The settings that a JSON value holds. -/
def ofJson? (j : Json) : Option (Config Float) := do
  let standard : Config Float := default
  let [backend, maxIterations, constraint, optimality, step, notify] ← j.record? fieldNames | none
  return {
    backend := ← setting standard.backend (·.variant? >>= Backend.ofName?) backend
    maxIterations := ← setting standard.maxIterations Json.word? maxIterations
    constraintTolerance := ← setting standard.constraintTolerance Json.float? constraint
    optimalityTolerance := ← setting standard.optimalityTolerance Json.float? optimality
    finiteDifferenceStep := ← setting standard.finiteDifferenceStep Json.float? step
    notifyWhenDetermined := ← setting standard.notifyWhenDetermined Json.bool? notify }

/-- The settings that a text holds. -/
def ofText? (s : String) : Option (Config Float) := Json.ofText? s >>= ofJson?

end PlaneSketch.Config
