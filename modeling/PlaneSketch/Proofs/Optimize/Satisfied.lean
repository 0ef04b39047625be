import Mathlib.Tactic.NormNum.OfScientific
import PlaneSketch.Proofs.Optimize.Exact
import PlaneSketch.Proofs.Optimize.Steps

/-!
# Starts that leave nothing to do

In exact arithmetic a minimisation that starts where the residuals vanish and the objective is flat
stays there: the first step is zero, and so are the multipliers.  All that this needs of the kernel
is that it answers a right-hand side of zero by zero.

* `Kernel.KeepsZero`, `Config.Admissible`: the kernels and the settings that will do.
* `Sqp.iterate_start_of_satisfied`, `InteriorPoint.iterate_start_of_satisfied`: such a start passes
  the test.
* `minimize_of_satisfied`: **a minimisation gives such a start back, after no iteration.**
* `Problem.gradient_eq_zero`: central differences find an objective flat that rises alike on both
  sides.
-/

namespace PlaneSketch

variable {n m : Nat}

/-- The least-squares solution of a system with right-hand side zero is zero. -/
def Kernel.KeepsZero (k : Kernel ℝ) : Prop :=
  ∀ {m n : Nat} (a : Mat ℝ m n), k.leastSquares a 0 = 0

theorem Kernel.keepsZero_exact : exact.KeepsZero := exact_leastSquares_zero

/-- Settings with tolerances that zero is within, a step to take differences with, and leave to
make an iteration. -/
structure Config.Admissible (config : Config ℝ) : Prop where
  constraintTolerance : 0 ≤ config.constraintTolerance
  optimalityTolerance : 0 ≤ config.optimalityTolerance
  finiteDifferenceStep : 0 < config.finiteDifferenceStep
  maxIterations : 1 ≤ config.maxIterations

/-- The default settings with the other method. -/
noncomputable def newton : Config ℝ := { Config.default with backend := .interiorPoint }

theorem admissible_newton : newton.Admissible := by
  constructor <;> norm_num [newton, Config.default]

theorem maxAbs_zero_le {b : ℝ} (hb : 0 ≤ b) : maxAbs (0 : Vector ℝ n) ≤ b := by
  refine maxAbs_le hb fun x hx => ?_
  obtain ⟨i, hi, rfl⟩ := Vector.mem_iff_getElem.mp hx
  rw [Vector.getElem_zero, Scalar.abs_real, abs_zero]
  exact hb

theorem scaledTolerance_nonneg {tolerance : ℝ} (h : 0 ≤ tolerance) (x : Vector ℝ n) :
    0 ≤ scaledTolerance tolerance x :=
  mul_nonneg h (add_nonneg zero_le_one (zero_le_maxAbs x))

/-! ## Zero steps -/

namespace Kernel

variable {k : Kernel ℝ}

theorem solveKkt_zero (hKernel : k.KeepsZero) (h : Mat ℝ n n) (a : Mat ℝ m n) :
    k.solveKkt h a 0 0 = some (0, 0) := by
  have hZero : (0 : Vector ℝ n) ++ (0 : Vector ℝ m) = 0 := by
    refine Vector.ext fun i hi => ?_
    rw [Vector.getElem_append]
    split
    · rw [Vector.getElem_zero, Vector.getElem_zero]
    · rw [Vector.getElem_zero, Vector.getElem_zero]
  refine solveKkt_of_leastSquares ?_ (allFinite_real _)
  rw [Vector.neg_zero neg_zero, Vector.neg_zero neg_zero, hZero]
  exact hKernel _

theorem withRangeStep_zero (hKernel : k.KeepsZero) (a : Mat ℝ m n) :
    k.withRangeStep a 0 0 = some 0 := by
  have hNewton : k.leastSquares a (-0) = 0 := by
    rw [Vector.neg_zero neg_zero]
    exact hKernel a
  have hRange : k.leastSquares a (a.mulVec 0) = 0 := by
    rw [mulVec_zero]
    exact hKernel a
  rw [withRangeStep]
  simp only [hNewton, hRange]
  split
  · rfl
  · rw [if_pos (allFinite_real _)]
    refine congrArg some (Vector.ext fun i hi => ?_)
    rw [Vector.getElem_sub, Vector.getElem_add, Vector.getElem_zero, add_zero, sub_zero]

end Kernel

section Start

variable {k : Kernel ℝ} {config : Config ℝ} {p : Problem ℝ n m} {x : Vector ℝ n}

/-- A start that meets the constraints, with an objective that is flat there, passes the test. -/
theorem Sqp.iterate_start_of_satisfied (hKernel : k.KeepsZero) (hConfig : config.Admissible)
    (hResiduals : p.residuals x = 0) (hGradient : p.gradient config.finiteDifferenceStep x = 0) :
    (iterate k config p (start config p (p.at x))).2 = .converged := by
  have hStep : HasStep k (start config p (p.at x)) 0 0 := by
    refine ⟨0, ?_, ?_⟩
    · change k.solveKkt _ _ (p.gradient config.finiteDifferenceStep x) (p.residuals x) = _
      rw [hGradient, hResiduals]
      exact Kernel.solveKkt_zero hKernel _ _
    · change k.withRangeStep _ (p.residuals x) 0 = _
      rw [hResiduals]
      exact Kernel.withRangeStep_zero hKernel _
  have hFeasible : maxAbs (p.residuals x) ≤ scaledTolerance config.constraintTolerance x := by
    rw [hResiduals]
    exact maxAbs_zero_le (scaledTolerance_nonneg hConfig.constraintTolerance x)
  have hStationary : maxAbs (lagrangianGradient (p.gradient config.finiteDifferenceStep x)
      (p.jacobian config.finiteDifferenceStep x) 0) ≤
        scaledTolerance config.optimalityTolerance x := by
    rw [hGradient, lagrangianGradient, mulVec_zero, Vector.add_zero add_zero]
    exact maxAbs_zero_le (scaledTolerance_nonneg hConfig.optimalityTolerance x)
  refine iterate_of_isSolution hStep ?_
  rw [isSolution, Bool.and_eq_true, Bool.or_eq_true]
  exact ⟨decide_eq_true hFeasible, Or.inl (decide_eq_true hStationary)⟩

/-- So it does with the other method, where the multipliers come before the step. -/
theorem InteriorPoint.iterate_start_of_satisfied (hKernel : k.KeepsZero)
    (hConfig : config.Admissible) (hResiduals : p.residuals x = 0)
    (hGradient : p.gradient config.finiteDifferenceStep x = 0) :
    (iterate k config p (start k config p (p.at x))).2 = .converged := by
  have hFeasible : isFeasible config (start k config p (p.at x)) = true := by
    refine decide_eq_true ?_
    change maxAbs (p.residuals x) ≤ _
    rw [hResiduals]
    exact maxAbs_zero_le (scaledTolerance_nonneg hConfig.constraintTolerance _)
  have hStationary : isStationary config (start k config p (p.at x)) = true := by
    refine decide_eq_true ?_
    change maxAbs (lagrangianGradient (p.gradient config.finiteDifferenceStep x) _
      (k.leastSquares _ (-p.gradient config.finiteDifferenceStep x))) ≤ _
    rw [hGradient, Vector.neg_zero neg_zero, hKernel, lagrangianGradient, mulVec_zero,
      Vector.add_zero add_zero]
    exact maxAbs_zero_le (scaledTolerance_nonneg hConfig.optimalityTolerance _)
  rw [iterate, hFeasible, hStationary]
  rfl

/-- **A minimisation gives a start that leaves nothing to do back, after no iteration.** -/
theorem minimize_of_satisfied (hKernel : k.KeepsZero) (hConfig : config.Admissible) (hn : n ≠ 0)
    (hResiduals : p.residuals x = 0) (hGradient : p.gradient config.finiteDifferenceStep x = 0) :
    (minimize k config p x).minimization =
      (Best.ofIterate (p.at x) (scaledTolerance config.constraintTolerance x)).toMinimization
        true 0 := by
  have hBudget : config.maxIterations ≠ 0 := Nat.one_le_iff_ne_zero.mp hConfig.maxIterations
  rw [minimize]
  cases config.backend with
  | sqp =>
    exact Method.minimization_run_of_start hn hBudget (Sqp.here_start _)
      (Sqp.iterate_start_of_satisfied hKernel hConfig hResiduals hGradient)
  | interiorPoint =>
    exact Method.minimization_run_of_start hn hBudget (InteriorPoint.here_start _)
      (InteriorPoint.iterate_start_of_satisfied hKernel hConfig hResiduals hGradient)

end Start

/-- **An objective that rises alike on both sides of a point is flat there**, for any step. -/
theorem Problem.gradient_eq_zero {p : Problem ℝ n m} {x : Vector ℝ n}
    (hEven : ∀ (j : Fin n) (h : ℝ), p.objective (x.set j (x.get j + h) j.isLt) =
      p.objective (x.set j (x.get j - h) j.isLt)) (step : ℝ) : p.gradient step x = 0 := by
  refine Vector.ext fun j hj => ?_
  rw [gradient, Vector.getElem_ofFn, Vector.getElem_zero]
  exact (congrArg (· / _) (sub_eq_zero.mpr (hEven ⟨j, hj⟩ _))).trans (zero_div _)

end PlaneSketch
