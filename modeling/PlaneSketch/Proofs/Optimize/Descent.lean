import PlaneSketch.Proofs.Optimize.Damping
import PlaneSketch.Proofs.Optimize.Newton

/-!
# Steps that descend

The merit of sequential quadratic programming is the objective with the sum of the absolute
residuals on top, weighted by a penalty above all multipliers.  In exact arithmetic the step of the
quadratic model lowers it to first order, since the approximation of the Hessian is positive
definite throughout a run.

* `dotInOrder_le`: a sum of products is at most the largest factor times the sum of the others.
* `Kernel.IsExact.step_spec`: what an exact kernel makes of a model that can be solved; the
  correction towards the constraints changes nothing then.
* `dotInOrder_gradient`: the slope of the objective along the step of a model.
* `Sqp.isConvex_of_mem_trail`: **the model of every state of a run is strictly convex.**
* `Sqp.steps_descend`: **the step at every state of a run is a descent direction of the merit**, by
  an amount that shows the curvature and the residuals.
-/

namespace PlaneSketch

variable {n m : Nat}

/-! ## Norms -/

theorem norm1_pos {v : Vector ℝ n} (h : v ≠ 0) : 0 < norm1 v := by
  refine lt_of_le_of_ne (norm1_nonneg v) fun hZero => h (Vector.ext fun i hi => ?_)
  rw [norm1_real, eq_comm, Finset.sum_eq_zero_iff_of_nonneg fun i _ => abs_nonneg _] at hZero
  rw [Vector.getElem_zero]
  exact abs_eq_zero.mp (hZero ⟨i, hi⟩ (Finset.mem_univ _))

theorem abs_get_le_maxAbs (v : Vector ℝ n) (i : Fin n) : |v.get i| ≤ maxAbs v :=
  abs_le_maxAbs (Vector.getElem_mem i.isLt) (Scalar.Total.isNumber _)

/-- A sum of products is at most the largest factor times the sum of the others. -/
theorem dotInOrder_le (v w : Vector ℝ n) : dotInOrder v w ≤ maxAbs v * norm1 w := by
  rw [dotInOrder_real, norm1_real, Finset.mul_sum]
  refine Finset.sum_le_sum fun i _ => ?_
  calc v.get i * w.get i ≤ |v.get i * w.get i| := le_abs_self _
    _ = |v.get i| * |w.get i| := abs_mul _ _
    _ ≤ maxAbs v * |w.get i| :=
      mul_le_mul_of_nonneg_right (abs_get_le_maxAbs v i) (abs_nonneg _)

/-! ## The quadratic model -/

section Model

variable {k : Kernel ℝ} {h : Mat ℝ n n} {a : Mat ℝ m n} {g direction step p : Vector ℝ n}
  {c μ : Vector ℝ m}

/-- **What an exact kernel makes of a model whose constraints can be met.**  The step solves the
model, and its part across the constraints is the right one already. -/
theorem Kernel.IsExact.step_spec (hKernel : k.IsExact) (hPositive : h.IsPositiveDefinite)
    (hSolvable : ∃ y, a.mulVec y = -c) (hSystem : k.solveKkt h a g c = some (direction, μ))
    (hRange : k.withRangeStep a c direction = some step) :
    h.mulVec step + a.transpose.mulVec μ = -g ∧ a.mulVec step = -c := by
  obtain ⟨p, μ', hSystem', hDual, hPrimal⟩ :=
    hKernel.solvesLeastSquares.exists_solveKkt hPositive g hSolvable
  rw [hSystem, Option.some.injEq, Prod.mk.injEq] at hSystem'
  obtain ⟨rfl, rfl⟩ := hSystem'
  rw [Kernel.withRangeStep_of_mulVec_eq hPrimal, Option.some.injEq] at hRange
  exact hRange ▸ ⟨hDual, hPrimal⟩

/-- The slope of the objective along the step of a model. -/
theorem dotInOrder_gradient (hDual : h.mulVec p + a.transpose.mulVec μ = -g)
    (hPrimal : a.mulVec p = -c) :
    dotInOrder g p = dotInOrder μ c - dotInOrder p (h.mulVec p) := by
  have hSum := congrArg (dotInOrder · p) hDual
  simp only [add_dotInOrder, Mat.dotInOrder_transpose_mulVec, hPrimal, neg_dotInOrder,
    dotInOrder_neg] at hSum
  rw [dotInOrder_comm p]
  linarith

end Model

namespace Sqp

variable {k : Kernel ℝ} {config : Config ℝ} {p : Problem ℝ n m} {s t : State ℝ n m}
  {step : Vector ℝ n} {multipliers : Vector ℝ m}

/-! ## The approximation of the Hessian -/

/-- The quadratic model of a state is strictly convex. -/
structure State.IsConvex (s : State ℝ n m) : Prop where
  symmetric : s.hessian.IsSymmetric
  positive : s.hessian.IsPositiveDefinite

theorem isConvex_start (config : Config ℝ) (p : Problem ℝ n m) (z : Iterate ℝ n m) :
    (start config p z).IsConvex :=
  ⟨Mat.isSymmetric_identity, Mat.isPositiveDefinite_identity⟩

/-- An iteration updates the approximation or starts it anew. -/
theorem isConvex_of_next (hs : s.IsConvex) (h : (iterate k config p s).2 = .next t) :
    t.IsConvex := by
  cases decides_of_eq h with
  | searched _ _ _ =>
    exact ⟨isSymmetric_dampedBfgs hs.symmetric _ _,
      isPositiveDefinite_dampedBfgs hs.symmetric hs.positive _ _⟩
  | restored _ _ _ _ => exact ⟨Mat.isSymmetric_identity, Mat.isPositiveDefinite_identity⟩

/-- **The model of every state of a run is strictly convex.** -/
theorem isConvex_of_mem_trail {z : Iterate ℝ n m} {budget : Nat}
    (hs : s ∈ (method k config p).trail budget (start config p z)) : s.IsConvex :=
  Method.forall_mem_trail (isConvex_start config p z) (fun _ _ => isConvex_of_next) budget s hs

/-! ## The slope of the merit -/

/-- The model of a state has a step and multipliers: some solve the optimality conditions. -/
def State.IsConsistent (s : State ℝ n m) : Prop :=
  ∃ q ν, s.hessian.mulVec q + s.jacobian.transpose.mulVec ν = -s.gradient ∧
    s.jacobian.mulVec q = -s.here.residuals

theorem le_raisePenalty (penalty : ℝ) (multipliers : Vector ℝ m) :
    maxAbs multipliers * 1.1 + 1e-3 ≤ raisePenalty penalty multipliers := by
  rw [raisePenalty, Scalar.larger_real]
  exact le_max_right _ _

/-- The slope of the merit along the step of a model, under a penalty raised above its
multipliers. -/
theorem slope_le (penalty : ℝ)
    (hDual : s.hessian.mulVec step + s.jacobian.transpose.mulVec multipliers = -s.gradient)
    (hPrimal : s.jacobian.mulVec step = -s.here.residuals) :
    slope (raisePenalty penalty multipliers) s step ≤
      -dotInOrder step (s.hessian.mulVec step) -
        (0.1 * maxAbs multipliers + 1e-3) * norm1 s.here.residuals := by
  have hProduct := dotInOrder_le multipliers s.here.residuals
  have hPenalty := mul_le_mul_of_nonneg_right (le_raisePenalty penalty multipliers)
    (norm1_nonneg s.here.residuals)
  rw [slope, dot_real, dotInOrder_gradient hDual hPrimal]
  linarith

/-- It is negative unless there is neither a step nor a residual. -/
theorem slope_neg (hs : s.IsConvex) (penalty : ℝ)
    (hDual : s.hessian.mulVec step + s.jacobian.transpose.mulVec multipliers = -s.gradient)
    (hPrimal : s.jacobian.mulVec step = -s.here.residuals)
    (hNe : ¬ (step = 0 ∧ s.here.residuals = 0)) :
    slope (raisePenalty penalty multipliers) s step < 0 := by
  refine lt_of_le_of_lt (slope_le penalty hDual hPrimal) ?_
  have hWeight : 0 < 0.1 * maxAbs multipliers + 1e-3 := by
    have hMultipliers := zero_le_maxAbs multipliers
    norm_num at hMultipliers ⊢
    linarith
  by_cases hStep : step = 0
  · have hResiduals := mul_pos hWeight (norm1_pos fun h => hNe ⟨hStep, h⟩)
    rw [hStep, zero_dotInOrder]
    linarith
  · have hCurvature := hs.positive step hStep
    have hResiduals := mul_nonneg (le_of_lt hWeight) (norm1_nonneg s.here.residuals)
    linarith

/-- A model that can be solved is solved. -/
theorem exists_hasStep (hKernel : k.IsExact) (hs : s.IsConvex) (h : s.IsConsistent) :
    ∃ step multipliers, HasStep k s step multipliers ∧
      s.hessian.mulVec step + s.jacobian.transpose.mulVec multipliers = -s.gradient ∧
      s.jacobian.mulVec step = -s.here.residuals := by
  obtain ⟨q, ν, -, hMeets⟩ := h
  obtain ⟨step, multipliers, hSystem, hDual, hPrimal⟩ :=
    hKernel.solvesLeastSquares.exists_solveKkt hs.positive s.gradient ⟨q, hMeets⟩
  exact ⟨step, multipliers, ⟨step, hSystem, Kernel.withRangeStep_of_mulVec_eq hPrimal⟩, hDual,
    hPrimal⟩

/-- **The steps of a run descend.**  In exact arithmetic the approximation of the Hessian is
symmetric and positive definite at every state of a run, and where the optimality conditions of the
model can be met, the slope of the merit along the step is negative unless the step and the
residuals vanish. -/
theorem steps_descend (hKernel : k.IsExact) (config : Config ℝ) (p : Problem ℝ n m)
    (x : Vector ℝ n) :
    ∀ s ∈ (method k config p).trail config.maxIterations (start config p (p.at x)),
      s.hessian.IsSymmetric ∧ s.hessian.IsPositiveDefinite ∧
        (s.IsConsistent → ∃ step multipliers, HasStep k s step multipliers ∧
          let penalty := raisePenalty s.penalty multipliers
          slope penalty s step ≤ -dotInOrder step (s.hessian.mulVec step) -
              (0.1 * maxAbs multipliers + 1e-3) * norm1 s.here.residuals ∧
            (¬ (step = 0 ∧ s.here.residuals = 0) → slope penalty s step < 0)) := by
  intro s hs
  have hConvex : s.IsConvex := isConvex_of_mem_trail hs
  refine ⟨hConvex.symmetric, hConvex.positive, fun hConsistent => ?_⟩
  obtain ⟨step, multipliers, hStep, hDual, hPrimal⟩ := exists_hasStep hKernel hConvex hConsistent
  exact ⟨step, multipliers, hStep, slope_le s.penalty hDual hPrimal,
    slope_neg hConvex s.penalty hDual hPrimal⟩

/-- The first step towards a line that is given twice. -/
theorem steps_descend_bowl :
    let problem := quadratic bowl #v[-3, 0] 4.5 twice #v[2, 2]
    let s := start Config.default problem (problem.at #v[0, 0])
    ∃ step multipliers, HasStep Kernel.exact s step multipliers ∧
      slope (raisePenalty s.penalty multipliers) s step < 0 := by
  intro problem s
  have hResiduals : s.here.residuals = #v[-2, -2] := mulVec_twice_sub
  have hJacobian : s.jacobian = twice :=
    jacobian_quadratic (ne_of_gt admissible_newton.finiteDifferenceStep) _
  have hConsistent : s.IsConsistent := by
    obtain ⟨q, ν, hDual, hPrimal⟩ :=
      Mat.exists_saddle Mat.isPositiveDefinite_identity s.jacobian (-s.gradient) #v[2, 0]
    refine ⟨q, ν, hDual, hPrimal.trans ?_⟩
    rw [hJacobian, hResiduals]
    simp [mulVec_twice, ext_get_iff, Fin.forall_fin_two]
  obtain ⟨-, -, hSteps⟩ := steps_descend Kernel.isExact_exact Config.default problem #v[0, 0] s
    (Method.trail_eq_cons _ s ▸ List.mem_cons_self)
  obtain ⟨step, multipliers, hStep, -, hDescends⟩ := hSteps hConsistent
  refine ⟨step, multipliers, hStep, hDescends fun h => ?_⟩
  have hEntry := congrArg (fun v : Vector ℝ 2 => v[0]) (hResiduals.symm.trans h.2)
  norm_num at hEntry

end Sqp

end PlaneSketch
