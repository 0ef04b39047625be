import PlaneSketch.Proofs.Optimize.Pruning
import PlaneSketch.Proofs.Optimize.Quadratic
import PlaneSketch.Proofs.Optimize.Satisfied

/-!
# One Newton step

In exact arithmetic the model of a Newton step on a quadratic is the quadratic itself, so that the
first step leads to the minimum.

* `Kernel.SolvesLeastSquares.exists_solveKkt`: exact least squares solve the optimality conditions,
  also when some constraints follow from others.
* `InteriorPoint.iterate_start_quadratic`: the first iteration passes the test or takes the whole
  step.
* `minimize_quadratic`: **the interior-point method solves a strictly convex quadratic in one
  step.**
-/

namespace PlaneSketch

variable {m n : Nat}

/-! ## The linear systems -/

theorem maxAbs_zero : maxAbs (0 : Vector ℝ n) = 0 :=
  le_antisymm (maxAbs_zero_le (le_refl 0)) (zero_le_maxAbs 0)

namespace Kernel

variable {k : Kernel ℝ} {h : Mat ℝ n n} {a : Mat ℝ m n} {c : Vector ℝ m} {p : Vector ℝ n}

/-- **Exact least squares solve the optimality conditions whenever the constraints can be met.** -/
theorem SolvesLeastSquares.exists_solveKkt (hKernel : k.SolvesLeastSquares)
    (hPositive : h.IsPositiveDefinite) (g : Vector ℝ n) (hSolvable : ∃ y, a.mulVec y = -c) :
    ∃ p μ, k.solveKkt h a g c = some (p, μ) ∧
      h.mulVec p + a.transpose.mulVec μ = -g ∧ a.mulVec p = -c := by
  obtain ⟨y, hy⟩ := hSolvable
  obtain ⟨p₀, μ₀, hDual, hPrimal⟩ := Mat.exists_saddle hPositive a (-g) y
  obtain ⟨p, μ, hSolution⟩ := exists_eq_append
    (k.leastSquares (Mat.blocks h a.transpose a (0 : Mat ℝ m m)) (-g ++ -c))
  have hSolves := (hKernel _ (-g ++ -c)).mulVec_eq (y := p₀ ++ μ₀)
    (by rw [Mat.mulVec_saddle, hDual, hPrimal, hy])
  rw [hSolution, Mat.mulVec_saddle] at hSolves
  exact ⟨p, μ, solveKkt_of_leastSquares hSolution (allFinite_real _),
    Vector.append_inj_left hSolves, Vector.append_inj_right hSolves⟩

/-- A step that meets the constraints keeps its part across them. -/
theorem withRangeStep_of_mulVec_eq (h : a.mulVec p = -c) : k.withRangeStep a c p = some p := by
  rw [withRangeStep]
  split
  · rfl
  · rw [h, if_pos (allFinite_real _)]
    refine congrArg some (euclidean_injective ?_)
    rw [euclidean_sub, euclidean_add, add_sub_cancel_left]

end Kernel

namespace InteriorPoint

/-! ## The first search -/

section Exact

variable {k : Kernel ℝ} {config : Config ℝ} {p : Problem ℝ n m} {s : State ℝ n m}
  {y z : Iterate ℝ n m}

theorem nonneg_filter_start (y : Iterate ℝ n m) : (start k config p y).filter.Nonneg := by
  have hBound : (0 : ℝ) ≤ 1e4 * Scalar.larger (norm1 y.residuals) 1 := by
    rw [Scalar.larger_real]
    exact mul_nonneg (by norm_num) (le_max_of_le_right zero_le_one)
  exact Filter.Nonneg.add (fun e he => absurd he List.not_mem_nil) hBound none

/-- A step to where there are no residuals decreases enough unless it aims at the objective. -/
theorem decreasesEnough_of_residuals_zero {step : Vector ℝ n} (hResiduals : z.residuals = 0)
    (hObjective : aimsAtObjective s step = true →
      z.objective ≤ s.here.objective + armijo * dot s.gradient step) :
    decreasesEnough s step 1 z = true := by
  rw [decreasesEnough]
  split
  · next hAims => exact decide_eq_true (by rw [mul_one]; exact hObjective hAims)
  · rw [hResiduals, norm1_zero, Bool.or_eq_true]
    exact Or.inl (decide_eq_true
      (mul_nonneg (le_of_lt Filter.one_sub_margin_pos) (norm1_nonneg _)))

/-- A start that is clearly not feasible does not aim at the objective. -/
theorem aimsAtObjective_start_of_lt {step : Vector ℝ n}
    (h : 1e-4 * max (norm1 y.residuals) 1 < norm1 y.residuals) :
    aimsAtObjective (start k config p y) step = false := by
  rw [aimsAtObjective, Bool.and_eq_false_iff]
  refine Or.inr (decide_eq_false (not_le_of_gt ?_))
  rw [← Scalar.larger_real] at h
  exact h

end Exact

/-! ## The run on a quadratic -/

section Quadratic

variable {k : Kernel ℝ} {config : Config ℝ} {h : Mat ℝ n n} {q : Vector ℝ n} {r : ℝ}
  {a : Mat ℝ m n} {b : Vector ℝ m} {x p : Vector ℝ n} {μ : Vector ℝ m} {s : State ℝ n m}

/-- The derivatives that a state holds are those of the quadratic at its iterate. -/
structure Sees (h : Mat ℝ n n) (q : Vector ℝ n) (r : ℝ) (a : Mat ℝ m n) (b : Vector ℝ m)
    (s : State ℝ n m) : Prop where
  here : s.here = (quadratic h q r a b).at s.here.x
  gradient : s.gradient = h.mulVec s.here.x + q
  jacobian : s.jacobian = a

theorem sees_start (hSymmetric : h.IsSymmetric) (hStep : config.finiteDifferenceStep ≠ 0)
    (x : Vector ℝ n) :
    Sees h q r a b (start k config (quadratic h q r a b) ((quadratic h q r a b).at x)) :=
  ⟨rfl, gradient_quadratic hSymmetric hStep x, jacobian_quadratic hStep x⟩

theorem sees_accept (hSymmetric : h.IsSymmetric) (hStep : config.finiteDifferenceStep ≠ 0)
    (step : Vector ℝ n) (μ : Vector ℝ m) (fraction : ℝ) (x : Vector ℝ n) :
    Sees h q r a b (accept config (quadratic h q r a b) s step μ fraction
      ((quadratic h q r a b).at x)) :=
  ⟨rfl, gradient_quadratic hSymmetric hStep x, jacobian_quadratic hStep x⟩

/-- **The step of a state leads to the minimum.** -/
theorem Sees.exists_hasStep (hSees : Sees h q r a b s) (hKernel : k.IsExact)
    (hSymmetric : h.IsSymmetric) (hPositive : h.IsPositiveDefinite)
    (hStep : config.finiteDifferenceStep ≠ 0) (hSolvable : ∃ y, a.mulVec y = b) :
    ∃ p μ, HasStep k config (quadratic h q r a b) s 0 p μ ∧
      h.mulVec p + a.transpose.mulVec μ = -(h.mulVec s.here.x + q) ∧
      a.mulVec p = -(a.mulVec s.here.x - b) := by
  obtain ⟨y, hy⟩ := hSolvable
  have hReach : a.mulVec (y - s.here.x) = -(a.mulVec s.here.x - b) := by
    rw [mulVec_sub, hy]
    refine euclidean_injective ?_
    simp only [euclidean_neg, euclidean_sub, neg_sub]
  obtain ⟨p, μ, hSystem, hDual, hPrimal⟩ :=
    hKernel.solvesLeastSquares.exists_solveKkt hPositive (h.mulVec s.here.x + q) ⟨_, hReach⟩
  have hResiduals : s.here.residuals = a.mulVec s.here.x - b := by
    rw [hSees.here]
    rfl
  refine ⟨p, μ, ⟨h, p, ?_, ?_, ?_⟩, hDual, hPrimal⟩
  · rw [lagrangianHessian_quadratic hSymmetric hStep, correctInertia,
      if_pos ((hKernel.isPositiveDefinite hSymmetric).mpr hPositive)]
  · rw [hSees.jacobian, hSees.gradient, hResiduals, hSystem]
  · rw [hSees.jacobian, hResiduals]
    exact Kernel.withRangeStep_of_mulVec_eq hPrimal

/-- **A state at the minimum with its multipliers passes the test.** -/
theorem Sees.iterate_of_optimality (hSees : Sees h q r a b s)
    (hOptimal : Optimality h q a b s.here.x s.multipliers)
    (hConstraint : 0 ≤ config.constraintTolerance) (hOptimality : 0 ≤ config.optimalityTolerance) :
    (iterate k config (quadratic h q r a b) s).2 = .converged := by
  have hResiduals : s.here.residuals = 0 := by
    rw [hSees.here]
    exact sub_eq_zero_iff.mpr hOptimal.primal
  have hFeasible : isFeasible config s = true := by
    refine decide_eq_true ?_
    rw [Iterate.violation, hResiduals]
    exact maxAbs_zero_le (scaledTolerance_nonneg hConstraint _)
  have hStationary : isStationary config s = true := by
    refine decide_eq_true ?_
    rw [hSees.gradient, hSees.jacobian, lagrangianGradient, hOptimal.dual]
    exact maxAbs_zero_le (scaledTolerance_nonneg hOptimality _)
  rw [iterate, hFeasible, hStationary]
  rfl

theorem along_one (problem : Problem ℝ n m) (x p : Vector ℝ n) :
    problem.along x p 1 = problem.at (x + p) := by
  have hOne : (1 : ℝ) * p = p := Vector.ext fun i hi => by rw [Vector.getElem_hmul, one_mul]
  rw [Problem.along, hOne]

/-- A whole step takes over the multipliers of its model. -/
theorem multipliers_accept (problem : Problem ℝ n m) (s : State ℝ n m) (p : Vector ℝ n)
    (μ : Vector ℝ m) (z : Iterate ℝ n m) : (accept config problem s p μ 1 z).multipliers = μ := by
  refine Vector.ext fun i hi => ?_
  rw [accept, Vector.getElem_add, Vector.getElem_hmul, Vector.getElem_sub, one_mul,
    add_sub_cancel]

/-- The first search on a quadratic takes the whole step, from a start that is feasible or clearly
not. -/
theorem search_start_quadratic (hSymmetric : h.IsSymmetric)
    (hStep : config.finiteDifferenceStep ≠ 0)
    (hStart : a.mulVec x = b ∨
      1e-4 * max (norm1 (a.mulVec x - b)) 1 < norm1 (a.mulVec x - b))
    (hDual : h.mulVec p + a.transpose.mulVec μ = -(h.mulVec x + q))
    (hPrimal : a.mulVec p = -(a.mulVec x - b)) :
    let problem := quadratic h q r a b
    search problem (start k config problem (problem.at x)) p =
      some (1, problem.at (x + p)) := by
  intro problem
  have hResiduals : (problem.at (x + p)).residuals = 0 :=
    sub_eq_zero_iff.mpr (optimality_add hDual hPrimal).primal
  have hSees : Sees h q r a b (start k config problem (problem.at x)) :=
    sees_start hSymmetric hStep x
  refine search_of_whole_step (along_one problem x p) rfl ?_
    (decreasesEnough_of_residuals_zero hResiduals fun hAims => ?_)
  · rw [hResiduals, norm1_zero]
    exact Filter.acceptable_zero (nonneg_filter_start _) _
  rcases hStart with hFeasible | hClear
  · have hAlong : a.mulVec p = 0 := by
      rw [hPrimal, sub_eq_zero_iff.mpr hFeasible, Vector.neg_zero neg_zero]
    have hDescends : dot (start k config problem (problem.at x)).gradient p < 0 :=
      of_decide_eq_true (Bool.and_eq_true_iff.mp hAims).1
    rw [dot_real, hSees.gradient] at hDescends ⊢
    have hHalf : (problem.at (x + p)).objective =
        problem.objective x + dotInOrder (h.mulVec x + q) p / 2 :=
      objective_quadratic_add hSymmetric hDual hAlong
    have hArmijo : (armijo : ℝ) ≤ 1 / 2 := by norm_num [armijo]
    have hShare := mul_le_mul_of_nonpos_right hArmijo (le_of_lt hDescends)
    rw [hHalf, div_eq_inv_mul, ← one_div]
    exact add_le_add_right hShare (problem.objective x)
  · exact absurd (hAims.symm.trans (aimsAtObjective_start_of_lt hClear)) (by simp)

/-- **The first iteration on a quadratic passes the test or takes the whole step**, to where the
optimality conditions hold with the multipliers that are taken over. -/
theorem iterate_start_quadratic (hKernel : k.IsExact) (hSymmetric : h.IsSymmetric)
    (hPositive : h.IsPositiveDefinite) (hStep : config.finiteDifferenceStep ≠ 0)
    (hSolvable : ∃ y, a.mulVec y = b)
    (hStart : a.mulVec x = b ∨
      1e-4 * max (norm1 (a.mulVec x - b)) 1 < norm1 (a.mulVec x - b)) :
    let problem := quadratic h q r a b
    (iterate k config problem (start k config problem (problem.at x))).2 = .converged ∨
      ∃ s, (iterate k config problem (start k config problem (problem.at x))).2 = .next s ∧
        Sees h q r a b s ∧ Optimality h q a b s.here.x s.multipliers := by
  intro problem
  have hSees : Sees h q r a b (start k config problem (problem.at x)) :=
    sees_start hSymmetric hStep x
  obtain ⟨p, μ, hHasStep, hDual, hPrimal⟩ :=
    hSees.exists_hasStep hKernel hSymmetric hPositive hStep hSolvable
  rcases iterate_of_search hHasStep
    (search_start_quadratic hSymmetric hStep hStart hDual hPrimal) with hConverged | hNext
  · exact Or.inl hConverged
  · refine Or.inr ⟨_, hNext, sees_accept hSymmetric hStep p μ 1 (x + p), ?_⟩
    rw [multipliers_accept]
    exact optimality_add hDual hPrimal

/-- A minimum beats any other point that is feasible or clearly not. -/
theorem offer_of_optimality (hSymmetric : h.IsSymmetric) (hPositive : h.IsPositiveDefinite)
    {y : Vector ℝ n} {tolerance : ℝ} (hTolerance : 0 ≤ tolerance)
    (hOptimal : Optimality h q a b y μ)
    (hStart : a.mulVec x = b ∨ tolerance < maxAbs (a.mulVec x - b)) :
    let problem := quadratic h q r a b
    (Best.ofIterate (problem.at x) tolerance).offer (problem.at y) =
      Best.ofIterate (problem.at y) tolerance := by
  intro problem
  have hZero : ∀ {z : Vector ℝ n}, a.mulVec z = b → (problem.at z).violation ≤ tolerance := by
    intro z hz
    have hResiduals : (problem.at z).residuals = 0 := sub_eq_zero_iff.mpr hz
    rw [Iterate.violation, hResiduals]
    exact maxAbs_zero_le hTolerance
  rcases hStart with hFeasible | hClear
  · by_cases hSame : x = y
    · rw [hSame]
      exact Best.offer_of_not_better (Iterate.Better.irrefl _)
    · exact Best.offer_of_better (.objective (hZero hOptimal.primal) (hZero hFeasible)
        (objective_quadratic_lt hSymmetric hPositive hOptimal hFeasible hSame))
  · exact Best.offer_of_better (.feasible (hZero hOptimal.primal) (not_le_of_gt hClear))

/-- **A run on a quadratic ends at its start, or after one step at the minimum.** -/
theorem minimization_run_quadratic (hKernel : k.IsExact) (hn : n ≠ 0) (hSymmetric : h.IsSymmetric)
    (hPositive : h.IsPositiveDefinite) (hStep : config.finiteDifferenceStep ≠ 0)
    (hConstraint : 0 ≤ config.constraintTolerance) (hOptimality : 0 ≤ config.optimalityTolerance)
    (hBudget : 2 ≤ config.maxIterations) (hSolvable : ∃ y, a.mulVec y = b)
    (hStart : a.mulVec x = b ∨
      1e-4 * max (norm1 (a.mulVec x - b)) 1 < norm1 (a.mulVec x - b) ∧
        config.constraintTolerance * (1 + maxAbs x) < maxAbs (a.mulVec x - b)) :
    let problem := quadratic h q r a b
    let tolerance := scaledTolerance config.constraintTolerance x
    (iterate k config problem (start k config problem (problem.at x))).2 = .converged ∧
        (run k config problem x).minimization =
          (Best.ofIterate (problem.at x) tolerance).toMinimization true 0 ∨
      ∃ y μ, Optimality h q a b y μ ∧ (run k config problem x).minimization =
        (Best.ofIterate (problem.at y) tolerance).toMinimization true 1 := by
  intro problem tolerance
  rcases iterate_start_quadratic (q := q) (r := r) hKernel hSymmetric hPositive hStep hSolvable
    (hStart.imp_right And.left) with hConverged | ⟨s, hNext, hSees, hOptimal⟩
  · exact Or.inl ⟨hConverged,
      Method.minimization_run_of_start hn (by omega) (here_start _) hConverged⟩
  · refine Or.inr ⟨s.here.x, s.multipliers, hOptimal, ?_⟩
    obtain ⟨budget, hTwo⟩ := Nat.exists_eq_add_of_le' hBudget
    have hHere : (method k config problem).here s = problem.at s.here.x := hSees.here
    have hBest : (Best.ofIterate (problem.at x) tolerance).offer (problem.at s.here.x) =
        Best.ofIterate (problem.at s.here.x) tolerance :=
      offer_of_optimality hSymmetric hPositive (scaledTolerance_nonneg hConstraint x) hOptimal
        (hStart.imp_right And.right)
    rw [run, Method.run, if_neg hn, hTwo, Method.minimization_loop_of_next hNext,
      Method.minimization_loop_of_converged
        (hSees.iterate_of_optimality hOptimal hConstraint hOptimality), hHere]
    -- the minimum is offered when it is reached and again when it has passed the test
    change (((Best.ofIterate (problem.at x) tolerance).offer _).offer _).toMinimization true 1 = _
    rw [hBest, Best.offer_of_not_better (Iterate.Better.irrefl _)]

end Quadratic

end InteriorPoint

/-- **The interior-point method solves a strictly convex quadratic in one Newton step.**  In exact
arithmetic, with affine constraints that can be met and of which some may follow from others, a run
from a start that is feasible or clearly not converges at once where it stands, if it passes the
test there, or after one step at the only minimum. -/
theorem minimize_quadratic {k : Kernel ℝ} (hKernel : k.IsExact) {config : Config ℝ}
    (hBackend : config.backend = .interiorPoint) (hConstraint : 0 ≤ config.constraintTolerance)
    (hOptimality : 0 ≤ config.optimalityTolerance) (hStep : config.finiteDifferenceStep ≠ 0)
    (hBudget : 2 ≤ config.maxIterations) (hn : n ≠ 0) {h : Mat ℝ n n}
    (hSymmetric : h.IsSymmetric) (hPositive : h.IsPositiveDefinite) (q : Vector ℝ n) (r : ℝ)
    {a : Mat ℝ m n} {b : Vector ℝ m} (hSolvable : ∃ y, a.mulVec y = b) {x : Vector ℝ n}
    (hStart : a.mulVec x = b ∨
      1e-4 * max (norm1 (a.mulVec x - b)) 1 < norm1 (a.mulVec x - b) ∧
        config.constraintTolerance * (1 + maxAbs x) < maxAbs (a.mulVec x - b)) :
    let problem := quadratic h q r a b
    let result := (minimize k config problem x).minimization
    result.converged = true ∧ result.iterations ≤ 1 ∧
      (result.iterations = 0 → result.x = x ∧ InteriorPoint.Passes k config problem
        (InteriorPoint.start k config problem (problem.at x))) ∧
      (result.iterations = 1 → a.mulVec result.x = b ∧ result.maxResidual = 0 ∧
        ∀ y, a.mulVec y = b → y ≠ result.x → problem.objective result.x < problem.objective y) := by
  intro problem result
  have hRun : result = (InteriorPoint.run k config problem x).minimization := by
    simp only [result, minimize, hBackend]
  rcases InteriorPoint.minimization_run_quadratic (q := q) (r := r) hKernel hn hSymmetric hPositive
    hStep hConstraint hOptimality hBudget hSolvable hStart with
    ⟨hConverged, hEnds⟩ | ⟨y, μ, hOptimal, hEnds⟩
  · rw [hRun, hEnds]
    exact ⟨rfl, Nat.zero_le 1, fun _ => ⟨rfl, InteriorPoint.passes_of_converged hConverged⟩,
      fun h => absurd h Nat.zero_ne_one⟩
  · rw [hRun, hEnds]
    refine ⟨rfl, Nat.le_refl 1, fun h => absurd h Nat.one_ne_zero, fun _ => ⟨hOptimal.primal, ?_,
      fun z hz hNe => objective_quadratic_lt hSymmetric hPositive hOptimal hz hNe⟩⟩
    have hResiduals : (problem.at y).residuals = 0 := sub_eq_zero_iff.mpr hOptimal.primal
    exact (congrArg maxAbs hResiduals).trans maxAbs_zero

/-! ### A constraint that is given twice -/

/-- The identity, the matrix of half a squared distance. -/
def bowl : Mat ℝ 2 2 := #v[#v[1, 0], #v[0, 1]]

/-- One row, given twice. -/
def twice : Mat ℝ 2 2 := #v[#v[1, 1], #v[1, 1]]

theorem isSymmetric_bowl : bowl.IsSymmetric := by
  refine Mat.ext_entry fun i j => ?_
  rw [Mat.transpose, Mat.entry_ofFn]
  fin_cases i <;> fin_cases j <;> rfl

theorem dotInOrder_mulVec_bowl (v : Vector ℝ 2) :
    dotInOrder v (bowl.mulVec v) = v.get 0 * v.get 0 + v.get 1 * v.get 1 := by
  simp [dotInOrder_real, get_mulVec, bowl, Mat.entry, Fin.sum_univ_two]

theorem isPositiveDefinite_bowl : bowl.IsPositiveDefinite := by
  intro v hv
  rw [dotInOrder_mulVec_bowl]
  have hSquares : v.get 0 * v.get 0 + v.get 1 * v.get 1 ≠ 0 := fun hZero => by
    obtain ⟨h0, h1⟩ := mul_self_add_mul_self_eq_zero.mp hZero
    exact hv (ext_get_iff.mpr (Fin.forall_fin_two.mpr ⟨h0, h1⟩))
  exact lt_of_le_of_ne (add_nonneg (mul_self_nonneg _) (mul_self_nonneg _)) hSquares.symm

theorem mulVec_twice (v : Vector ℝ 2) :
    twice.mulVec v = #v[v.get 0 + v.get 1, v.get 0 + v.get 1] := by
  simp [ext_get_iff, Fin.forall_fin_two, get_mulVec, twice, Mat.entry, Fin.sum_univ_two]

theorem exists_mulVec_twice : ∃ y, twice.mulVec y = #v[2, 2] :=
  ⟨#v[2, 0], by simp [mulVec_twice]⟩

theorem mulVec_twice_sub : twice.mulVec #v[0, 0] - #v[2, 2] = #v[-2, -2] := by
  simp [mulVec_twice, ext_get_iff, Fin.forall_fin_two]

/-- The origin is clearly off the line. -/
theorem far_from_line :
    1e-4 * max (norm1 (twice.mulVec #v[0, 0] - #v[2, 2])) 1 <
        norm1 (twice.mulVec #v[0, 0] - #v[2, 2]) ∧
      newton.constraintTolerance * (1 + maxAbs (#v[0, 0] : Vector ℝ 2)) <
        maxAbs (twice.mulVec #v[0, 0] - #v[2, 2]) := by
  rw [mulVec_twice_sub, norm1_real, Fin.sum_univ_two, maxAbs_cons, maxAbs_cons]
  norm_num [newton, Config.default]

theorem objective_quadratic_bowl (x : Vector ℝ 2) :
    (quadratic bowl #v[-3, 0] 4.5 twice #v[2, 2]).objective x =
      ((x.get 0 - 3) * (x.get 0 - 3) + x.get 1 * x.get 1) / 2 := by
  rw [objective_quadratic, dotInOrder_mulVec_bowl, dotInOrder_real, Fin.sum_univ_two]
  norm_num
  ring

/-- The point of the line through `(2, 0)` and `(0, 2)` that is next to `(3, 0)`, with the line
given twice. -/
theorem minimize_quadratic_bowl :
    let result := (minimize Kernel.exact newton (quadratic bowl #v[-3, 0] 4.5 twice #v[2, 2])
      #v[0, 0]).minimization
    result.converged = true ∧ result.iterations = 1 ∧ result.maxResidual = 0 ∧
      result.x = #v[5 / 2, -1 / 2] := by
  intro result
  have hBackend : newton.backend = .interiorPoint := rfl
  have hBudget : 2 ≤ newton.maxIterations := by norm_num [newton, Config.default]
  obtain ⟨hConverged, hIterations, hZero, hOne⟩ := minimize_quadratic Kernel.isExact_exact hBackend
    admissible_newton.constraintTolerance admissible_newton.optimalityTolerance
    (ne_of_gt admissible_newton.finiteDifferenceStep) hBudget two_ne_zero isSymmetric_bowl
    isPositiveDefinite_bowl #v[-3, 0] 4.5 exists_mulVec_twice (Or.inr far_from_line)
  have hOnce : result.iterations = 1 := by
    -- the start is not feasible
    refine le_antisymm hIterations (Nat.one_le_iff_ne_zero.mpr fun h => ?_)
    exact absurd (hZero h).2.feasible (not_le_of_gt far_from_line.2)
  obtain ⟨hFeasible, hMaxResidual, hLeast⟩ := hOne hOnce
  refine ⟨hConverged, hOnce, hMaxResidual, by_contra fun hNe => ?_⟩
  have hEntry : (5 / 2 + -1 / 2 : ℝ) = 2 := by norm_num
  have hLine : twice.mulVec #v[5 / 2, -1 / 2] = #v[2, 2] := by
    rw [mulVec_twice, ext_get_iff, Fin.forall_fin_two]
    exact ⟨hEntry, hEntry⟩
  have hSum : result.x.get 0 + result.x.get 1 = 2 :=
    ext_get_iff.mp ((mulVec_twice result.x).symm.trans hFeasible) 0
  have hLess : (quadratic bowl #v[-3, 0] 4.5 twice #v[2, 2]).objective result.x < 1 / 4 := by
    refine (hLeast #v[5 / 2, -1 / 2] hLine (Ne.symm hNe)).trans_eq ?_
    rw [objective_quadratic_bowl]
    show ((5 / 2 - 3) * (5 / 2 - 3) + -1 / 2 * (-1 / 2) : ℝ) / 2 = 1 / 4
    norm_num
  rw [objective_quadratic_bowl, eq_sub_of_add_eq' hSum] at hLess
  nlinarith [mul_self_nonneg (result.x.get 0 - 5 / 2)]

end PlaneSketch
