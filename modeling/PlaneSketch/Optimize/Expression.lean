import PlaneSketch.Optimize.Problem

/-!
# Analytic problems

Problems whose objective and residuals are given by formulas.
-/

namespace PlaneSketch

/-- A formula in `n` variables. -/
inductive Expression (α : Type) (n : Nat) where
  | constant (value : α)
  | coordinate (index : Fin n)
  | neg (e : Expression α n)
  | sqrt (e : Expression α n)
  | abs (e : Expression α n)
  | square (e : Expression α n)
  | add (e f : Expression α n)
  | sub (e f : Expression α n)
  | mul (e f : Expression α n)
  | div (e f : Expression α n)

/-- The value of a formula at a point. -/
def Expression.eval {α : Type} [Scalar α] {n : Nat} (x : Vector α n) : Expression α n → α
  | constant value => value
  | coordinate index => x[index]
  | neg e => -e.eval x
  | sqrt e => Scalar.sqrt (e.eval x)
  | abs e => Scalar.abs (e.eval x)
  | square e => e.eval x * e.eval x
  | add e f => e.eval x + f.eval x
  | sub e f => e.eval x - f.eval x
  | mul e f => e.eval x * f.eval x
  | div e f => e.eval x / f.eval x

/-- The problem with an objective and residuals given by formulas. -/
def Problem.ofExpressions {α : Type} [Scalar α] {n m : Nat} (objective : Expression α n)
    (residuals : Vector (Expression α n) m) : Problem α n m :=
  ⟨objective.eval, fun x => residuals.map (·.eval x)⟩

end PlaneSketch
