import PlaneSketch.Solver.Solve

/-!
# Callbacks

What the geometry-changed callback may do, as a program: each command comes with the rest of the
program, which may hang on the command's answer.
-/

namespace PlaneSketch

/-- A program that runs after a solve and may send messages of type `ω`. -/
inductive Callback (α ω : Type) where
  | done
  /-- Asks for a solve. -/
  | solve (active : Option PointRef) (rest : Callback α ω)
  /-- Asks for a drag and goes on with its answer. -/
  | drag (p : PointRef) (target : Vec2 α) (rest : Bool → Callback α ω)
  /-- Installs another callback. -/
  | install (callback : Callback α ω) (rest : Callback α ω)
  /-- Changes the settings. -/
  | configure (change : Config α → Config α) (rest : Callback α ω)
  /-- Changes the sketch. -/
  | edit (change : Sketch α → Sketch α) (rest : Callback α ω)
  /-- Looks at the sketch and at whether a solve is running. -/
  | look (rest : Sketch α → Bool → Callback α ω)
  /-- Sends a message. -/
  | send (message : ω) (rest : Callback α ω)

end PlaneSketch
