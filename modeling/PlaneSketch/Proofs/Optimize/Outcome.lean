import Mathlib.Tactic.Linarith
import Mathlib.Tactic.NormNum.OfScientific
import PlaneSketch.LinearAlgebra.Svd
import PlaneSketch.Optimize.Expression
import PlaneSketch.Proofs.Optimize.Exact
import PlaneSketch.Proofs.Optimize.Steps
import PlaneSketch.Proofs.Scalar.Float

/-!
# What a minimisation gives back

A minimisation gives back the best of the iterates that it visits.  This need not be the one at
which it found convergence.

* `minimize_unbeaten`: **what is given back is an iterate of the run that no other one beats**,
  with the values of the problem there.
* `minimize_converged`: **a run that converges passes the test at its last iterate**, and gives
  that one back or an earlier one that no other one beats.
* `minimize_keeps_earlier`: the two can differ.
-/

namespace PlaneSketch

open Scalar

variable {α : Type} [Scalar α] {n m : Nat} {k : Kernel α} {config : Config α}
  {p : Problem α n m} {x : Vector α n}

/-! ## The iterate that is given back -/

/-- A minimisation keeps one of its iterates, and no other one beats it. -/
theorem exists_minimize_eq [Ordered α] (k : Kernel α) (config : Config α) (p : Problem α n m)
    (x : Vector α n) :
    ∃ w ∈ iterates k config p x, ∃ converged iterations,
      (minimize k config p x).minimization =
        (Best.ofIterate w (scaledTolerance config.constraintTolerance x)).toMinimization converged
          iterations ∧
      iterations ≤ config.maxIterations ∧
      ∀ y ∈ iterates k config p x,
        ¬ y.Better (scaledTolerance config.constraintTolerance x) w := by
  rw [iterates, minimize]
  cases config.backend with
  | sqp => exact Method.exists_run_eq (Sqp.here_start (p.at x))
  | interiorPoint => exact Method.exists_run_eq (InteriorPoint.here_start (p.at x))

/-- **What a minimisation gives back is an iterate of the run that no other one beats.** -/
theorem minimize_unbeaten [Ordered α] (k : Kernel α) (config : Config α) (p : Problem α n m)
    (x : Vector α n) :
    let r := (minimize k config p x).minimization
    let tolerance := scaledTolerance config.constraintTolerance x
    r.objective = p.objective r.x ∧ r.maxResidual = maxAbs (p.residuals r.x) ∧
      r.iterations ≤ config.maxIterations ∧
      p.at r.x ∈ iterates k config p x ∧
      (iterates k config p x).head? = some (p.at x) ∧
      (iterates k config p x).IsChain (Accepts k p) ∧
      (∀ y ∈ iterates k config p x, ¬ y.Better tolerance (p.at r.x)) ∧
      r.maxResidual ≤ larger (maxAbs (p.residuals x)) tolerance := by
  intro r tolerance
  obtain ⟨w, hw, converged, iterations, hRun, hCount, hUnbeaten⟩ :=
    exists_minimize_eq k config p x
  have hKept : r = (Best.ofIterate w tolerance).toMinimization converged iterations := hRun
  have hAt : w = p.at w.x := eq_at_of_mem_iterates hw
  have hHead := head?_iterates k config p x
  have hStart : ¬ (p.at x).Better tolerance w := hUnbeaten _ (List.mem_of_mem_head? hHead)
  rw [hKept]
  refine ⟨congrArg Iterate.objective hAt, congrArg (maxAbs <| Iterate.residuals ·) hAt, hCount,
    ?_, hHead, isChain_iterates k config p x, ?_, ?_⟩
  · exact hAt ▸ hw
  · exact hAt ▸ hUnbeaten
  · exact Iterate.Better.violation_le_of_not hStart (le_larger_right _)
      (le_larger_left (isNumber_maxAbs _) _)

/-- Minimise `x²` on the line `x + y = 1`. -/
def parabola : Problem Float 2 1 :=
  .ofExpressions (.square (.coordinate 0))
    #v[.sub (.add (.coordinate 0) (.coordinate 1)) (.constant 1)]

theorem minimize_unbeaten_parabola :
    let r := (minimize Kernel.float Config.default parabola #v[3, 0]).minimization
    r.objective = parabola.objective r.x ∧ r.iterations ≤ 100 ∧
      parabola.at r.x ∈ iterates Kernel.float Config.default parabola #v[3, 0] ∧
      ∀ y ∈ iterates Kernel.float Config.default parabola #v[3, 0],
        ¬ y.Better (scaledTolerance 1e-8 #v[3, 0]) (parabola.at r.x) := by
  obtain ⟨hObjective, -, hCount, hMem, -, -, hUnbeaten, -⟩ :=
    minimize_unbeaten Kernel.float Config.default parabola #v[3, 0]
  exact ⟨hObjective, hCount, hMem, hUnbeaten⟩

/-! ## The iterate at which a run converges -/

/-- A minimisation ends in a state that stands at `z` and passes the test of convergence. -/
def EndsAtSolution (k : Kernel α) (config : Config α) (p : Problem α n m) (x : Vector α n)
    (z : Iterate α n m) : Prop :=
  match config.backend with
  | .sqp => ∃ s, ((Sqp.method k config p).trail config.maxIterations
      (Sqp.start config p (p.at x))).getLast? = some s ∧ s.here = z ∧ Sqp.Passes k config s
  | .interiorPoint => ∃ s, ((InteriorPoint.method k config p).trail config.maxIterations
      (InteriorPoint.start k config p (p.at x))).getLast? = some s ∧ s.here = z ∧
        InteriorPoint.Passes k config p s

theorem EndsAtSolution.feasible {z : Iterate α n m} (h : EndsAtSolution k config p x z) :
    z.violation ≤ scaledTolerance config.constraintTolerance z.x := by
  rw [EndsAtSolution] at h
  split at h
  · obtain ⟨s, -, rfl, hPasses⟩ := h
    exact hPasses.feasible
  · obtain ⟨s, -, rfl, hPasses⟩ := h
    exact hPasses.feasible

theorem exists_endsAtSolution (hn : n ≠ 0)
    (h : (minimize k config p x).minimization.converged = true) :
    ∃ before last, iterates k config p x = before ++ [last] ∧
      EndsAtSolution k config p x last := by
  revert h
  rw [minimize, iterates]
  simp only [EndsAtSolution]
  cases config.backend with
  | sqp =>
    intro h
    obtain ⟨before, last, hIterates, hLast, hTest⟩ := Method.exists_last_of_converged hn h
    exact ⟨before, last.here, hIterates, last, hLast, rfl, Sqp.passes_of_converged hTest⟩
  | interiorPoint =>
    intro h
    obtain ⟨before, last, hIterates, hLast, hTest⟩ := Method.exists_last_of_converged hn h
    exact ⟨before, last.here, hIterates, last, hLast, rfl,
      InteriorPoint.passes_of_converged hTest⟩

/-- **A run that converges passes the test at its last iterate**, and gives that one back or an
earlier one that no iterate of the run beats. -/
theorem minimize_converged [Ordered α] (hn : n ≠ 0)
    (h : (minimize k config p x).minimization.converged = true) :
    ∃ before last, iterates k config p x = before ++ [last] ∧
      EndsAtSolution k config p x last ∧
      ((minimize k config p x).minimization.x = last.x ∨
        ∃ y ∈ before, (minimize k config p x).minimization.x = y.x ∧
          ∀ z ∈ iterates k config p x,
            ¬ z.Better (scaledTolerance config.constraintTolerance x) y) := by
  obtain ⟨before, last, hIterates, hEnds⟩ := exists_endsAtSolution hn h
  obtain ⟨w, hw, converged, iterations, hRun, -, hUnbeaten⟩ := exists_minimize_eq k config p x
  refine ⟨before, last, hIterates, hEnds, ?_⟩
  rw [hRun]
  rw [hIterates, List.mem_append, List.mem_singleton] at hw
  rcases hw with hw | rfl
  · exact Or.inr ⟨w, hw, rfl, hUnbeaten⟩
  · exact Or.inl rfl

/-! ### A run that gives back an earlier iterate -/

/-- Minimise `x` subject to `x = 1`. -/
noncomputable def descent : Problem ℝ 1 1 :=
  .ofExpressions (.coordinate 0) #v[.sub (.coordinate 0) (.constant 1)]

/-- The default settings, but with every residual up to one counted as satisfied at zero. -/
noncomputable def loose : Config ℝ := { Config.default with constraintTolerance := 1 }

theorem objective_descent (x : ℝ) : descent.objective #v[x] = x := rfl

theorem residuals_descent (x : ℝ) : descent.residuals #v[x] = #v[x - 1] :=
  ext_get_iff.mpr (Fin.forall_fin_one.mpr (Vector.getElem_map _ Nat.zero_lt_one))

theorem loose_step_ne_zero (x : ℝ) : Problem.relativeStep loose.finiteDifferenceStep x ≠ 0 :=
  relativeStep_ne_zero (show (1e-6 : ℝ) ≠ 0 by norm_num) x

theorem gradient_descent (x : ℝ) :
    descent.gradient loose.finiteDifferenceStep #v[x] = #v[1] := by
  refine ext_get_iff.mpr (Fin.forall_fin_one.mpr ((Vector.getElem_ofFn Nat.zero_lt_one).trans ?_))
  exact differenceQuotient (loose_step_ne_zero x) (by simp [objective_descent]; ring)

theorem jacobian_descent (x : ℝ) :
    descent.jacobian loose.finiteDifferenceStep #v[x] = #v[#v[1]] := by
  refine Mat.ext_entry (Fin.forall_fin_one.mpr (Fin.forall_fin_one.mpr ?_))
  refine (Problem.entry_jacobian descent _ #v[x] 0 0).trans ?_
  refine differenceQuotient (d := 1) (loose_step_ne_zero x) ?_
  change (descent.residuals #v[x + _])[0] - (descent.residuals #v[x - _])[0] = _
  rw [residuals_descent, residuals_descent]
  simp
  ring

theorem violation_descent (x : ℝ) : (descent.at #v[x]).violation = |x - 1| := by
  rw [Iterate.violation, Problem.at, residuals_descent, maxAbs_cons, List.foldl_nil]

theorem transpose_one : Mat.transpose #v[#v[(1 : ℝ)]] = #v[#v[1]] :=
  Mat.ext_entry (Fin.forall_fin_one.mpr (Fin.forall_fin_one.mpr (Mat.entry_ofFn _ 0 0)))

theorem mulVec_one (v : Vector ℝ 1) : Mat.mulVec #v[#v[1]] v = v := by
  simp [ext_get_iff, get_mulVec, Mat.entry]

/-- The step leads to the only point that satisfies the constraint. -/
theorem hasStep_descent {s : Sqp.State ℝ 1 1} {c : ℝ} (hGradient : s.gradient = #v[1])
    (hJacobian : s.jacobian = #v[#v[1]]) (hResiduals : s.here.residuals = #v[c]) :
    ∃ b, s.hessian = #v[#v[b]] ∧ Sqp.HasStep Kernel.exact s #v[-c] #v[b * c - 1] := by
  obtain ⟨b, hHessian⟩ : ∃ b, s.hessian = #v[#v[b]] :=
    ⟨s.hessian.entry 0 0, Mat.ext_entry (Fin.forall_fin_one.mpr (Fin.forall_fin_one.mpr rfl))⟩
  have hMulVec : ∀ v : Vector ℝ 1, (Mat.mulVec #v[#v[b]] v).get 0 = b * v.get 0 := fun v => by
    rw [get_mulVec, Fin.sum_univ_one]
    rfl
  have hNeg : -#v[c] = #v[-c] := ext_get_iff.mpr (Fin.forall_fin_one.mpr (get_neg _ 0))
  refine ⟨b, hHessian, ?_⟩
  rw [Sqp.HasStep, hGradient, hJacobian, hResiduals, hHessian]
  refine ⟨#v[-c], Kernel.exact_solveKkt_eq ?_ ?_ fun q μ hDual hPrimal => ?_,
    Kernel.exact_withRangeStep_eq one_ne_zero ?_ (fun x y h => ?_) _⟩
  · rw [transpose_one, mulVec_one, ext_get_iff, Fin.forall_fin_one, get_add, get_neg, hMulVec]
    show b * -c + (b * c - 1) = -1
    ring
  · rw [mulVec_one, hNeg]
  · rw [mulVec_one, hNeg] at hPrimal
    subst hPrimal
    rw [transpose_one, mulVec_one] at hDual
    have hEntry := ext_get_iff.mp hDual 0
    rw [get_add, get_neg, hMulVec] at hEntry
    change b * -c + μ.get 0 = -1 at hEntry
    refine ⟨rfl, ext_get_iff.mpr (Fin.forall_fin_one.mpr ?_)⟩
    show μ.get 0 = b * c - 1
    linarith
  · rw [mulVec_one, hNeg]
  · rwa [mulVec_one, mulVec_one] at h

theorem isSolution_descent_iff {s : Sqp.State ℝ 1 1} {x b : ℝ}
    (hHere : s.here = descent.at #v[x]) (hGradient : s.gradient = #v[1])
    (hJacobian : s.jacobian = #v[#v[1]]) :
    Sqp.isSolution loose s #v[-(x - 1)] #v[b * (x - 1) - 1] = true ↔
      |x - 1| ≤ 1 * (1 + |x|) ∧
        (|b * (x - 1)| ≤ 1e-6 * (1 + |x|) ∨ |x - 1| ≤ 1e-12 * (1 + |x|)) := by
  have hViolation : s.here.violation = |x - 1| := by
    rw [hHere, violation_descent]
  have hSlope : lagrangianGradient s.gradient s.jacobian #v[b * (x - 1) - 1] =
      #v[b * (x - 1)] := by
    rw [hGradient, hJacobian, lagrangianGradient, transpose_one, mulVec_one]
    simp [ext_get_iff]
  have hPoint : s.here.x = #v[x] := by rw [hHere, Problem.at]
  rw [Sqp.isSolution, isNegligible, hViolation, hSlope, hPoint, scaledTolerance, scaledTolerance,
    maxAbs_cons, maxAbs_cons, maxAbs_cons, List.foldl_nil, List.foldl_nil, List.foldl_nil, abs_neg,
    Bool.and_eq_true, Bool.or_eq_true]
  exact and_congr decide_eq_true_iff (or_congr decide_eq_true_iff decide_eq_true_iff)

theorem merit_descent (penalty x : ℝ) :
    Sqp.merit penalty (descent.at #v[x]) = x + penalty * |x - 1| := by
  rw [Sqp.merit, Problem.at, residuals_descent, norm1_real, objective_descent, Fin.sum_univ_one]
  rfl

theorem start_descent (x : ℝ) : Sqp.start loose descent (descent.at #v[x]) =
    ⟨descent.at #v[x], #v[1], #v[#v[1]], Mat.identity 1, 1⟩ := by
  rw [Sqp.start]
  simp only [Problem.at, gradient_descent, jacobian_descent]

/-- The whole step is taken from zero. -/
theorem search_descent {penalty : ℝ} (h : 1 ≤ penalty) :
    Sqp.search descent penalty (Sqp.start loose descent (descent.at #v[0])) #v[1] =
      some (descent.at #v[1]) := by
  have hAlong : descent.along #v[0] #v[1] 1 = descent.at #v[1] := by
    refine congrArg descent.at (ext_get_iff.mpr ?_)
    simp
  refine backtrack_of_first ?_
  rw [start_descent]
  have hSlope : Sqp.slope penalty ⟨descent.at #v[0], #v[1], #v[#v[1]], Mat.identity 1, 1⟩ #v[1] =
      1 - penalty := by
    rw [Sqp.slope, dot_real, dotInOrder_real, Problem.at, residuals_descent, norm1_real]
    simp
  have hDescent : smaller (1 - penalty) 0 = 1 - penalty := if_pos (sub_nonpos.mpr h)
  have hPoint : (descent.at #v[0]).x = #v[0] := rfl
  simp only [hSlope, hDescent, hPoint, hAlong, merit_descent, isFinite_real, armijo]
  refine if_pos ?_
  rw [Bool.true_and]
  refine decide_eq_true ?_
  norm_num
  nlinarith

/-- The first iteration goes from zero to one without having passed the test, and the second one
passes it there. -/
theorem exists_iterate_descent : ∃ t,
    ¬ Sqp.Passes Kernel.exact loose (Sqp.start loose descent (descent.at #v[0])) ∧
      (Sqp.iterate Kernel.exact loose descent
        (Sqp.start loose descent (descent.at #v[0]))).2 = .next t ∧
      t.here = descent.at #v[1] ∧
      (Sqp.iterate Kernel.exact loose descent t).2 = .converged := by
  obtain ⟨b, hHessian, hStep⟩ :=
    hasStep_descent (s := Sqp.start loose descent (descent.at #v[0]))
      (gradient_descent 0) (jacobian_descent 0) (residuals_descent 0)
  have hEntry : b = 1 := by
    have hIdentity : (Mat.identity 1 : Mat ℝ 1 1)[0][0] = 1 := by simp [Mat.identity, Mat.ofFn]
    exact (congrArg (fun a : Mat ℝ 1 1 => a[0][0]) hHessian).symm.trans hIdentity
  have hTest := isSolution_descent_iff (s := Sqp.start loose descent (descent.at #v[0])) (b := b)
    rfl (gradient_descent 0) (jacobian_descent 0)
  have hNot : ¬ (|(0 : ℝ) - 1| ≤ 1 * (1 + |0|) ∧
      (|b * (0 - 1)| ≤ 1e-6 * (1 + |0|) ∨ |(0 : ℝ) - 1| ≤ 1e-12 * (1 + |0|))) := by
    rw [hEntry]
    norm_num
  have hUnit : (#v[-(0 - 1)] : Vector ℝ 1) = #v[1] := by norm_num
  rw [hUnit] at hStep hTest
  have hPenalty : 1 ≤ Sqp.raisePenalty 1 #v[b * (0 - 1) - 1] := le_larger_left (le_refl (1 : ℝ)) _
  refine ⟨_, ?_, Sqp.iterate_of_search hStep (hTest.not.mpr hNot) (search_descent hPenalty), rfl,
    ?_⟩
  · rintro ⟨step, multipliers, hStep', hTest'⟩
    obtain ⟨rfl, rfl⟩ := hStep.unique hStep'
    exact hNot (hTest.mp hTest')
  · obtain ⟨b', -, hStep'⟩ :=
      hasStep_descent (s := Sqp.accept loose descent _ _ _ (descent.at #v[1]))
        (gradient_descent 1) (jacobian_descent 1) (residuals_descent 1)
    refine Sqp.iterate_of_isSolution hStep' ?_
    rw [isSolution_descent_iff rfl (gradient_descent 1) (jacobian_descent 1)]
    norm_num

theorem not_better_descent : ¬ (descent.at #v[1]).Better 1 (descent.at #v[0]) := by
  have hZero : (descent.at #v[0]).violation = 1 := by
    rw [violation_descent]
    norm_num
  have hWorse : ¬ (descent.at #v[1]).objective ≤ (descent.at #v[0]).objective :=
    not_le_of_gt zero_lt_one
  rintro (⟨-, h⟩ | ⟨-, -, h⟩ | ⟨-, -, h, -, -⟩ | ⟨-, h, -⟩)
  · exact h hZero.le
  · exact hWorse (Scalar.le_of_lt h)
  · exact hWorse h
  · exact h hZero.le

/-- The run stops at one and gives back zero, which it had counted as feasible too. -/
theorem minimize_descent :
    iterates Kernel.exact loose descent #v[0] = [descent.at #v[0], descent.at #v[1]] ∧
      (minimize Kernel.exact loose descent #v[0]).minimization =
        (Best.ofIterate (descent.at #v[0]) 1).toMinimization true 1 := by
  obtain ⟨t, -, hNext, hHere, hConverged⟩ := exists_iterate_descent
  have hTolerance : scaledTolerance loose.constraintTolerance #v[0] = 1 := by
    rw [scaledTolerance, maxAbs_cons]
    exact (one_mul _).trans (by norm_num)
  constructor
  · change (Sqp.method Kernel.exact loose descent).iterates loose (Sqp.start loose descent)
      (descent.at #v[0]) = _
    rw [Method.iterates, if_neg one_ne_zero]
    change ((Sqp.method Kernel.exact loose descent).trail (98 + 1 + 1) _).map _ = _
    simp only [Method.trail, Sqp.method, hNext, hConverged]
    rw [List.map_cons, List.map_singleton, hHere]
    rfl
  · change ((Sqp.method Kernel.exact loose descent).run loose (Sqp.start loose descent)
      (descent.at #v[0])).minimization = _
    rw [Method.run, if_neg one_ne_zero]
    change ((Sqp.method Kernel.exact loose descent).loop (98 + 1 + 1) 0 _
      (Best.ofIterate (descent.at #v[0]) (scaledTolerance _ #v[0]))).minimization = _
    rw [Method.minimization_loop_of_next hNext, Method.minimization_loop_of_converged hConverged]
    change (((Best.ofIterate _ _).offer t.here).offer t.here).toMinimization true 1 = _
    rw [hTolerance, hHere, Best.offer_of_not_better not_better_descent,
      Best.offer_of_not_better not_better_descent]

theorem minimize_keeps_earlier :
    (minimize Kernel.exact loose descent #v[0]).minimization.converged = true ∧
      (iterates Kernel.exact loose descent #v[0]).getLast? = some (descent.at #v[1]) ∧
      (minimize Kernel.exact loose descent #v[0]).minimization.x = #v[0] ∧
      ¬ Sqp.Passes Kernel.exact loose (Sqp.start loose descent (descent.at #v[0])) := by
  obtain ⟨hIterates, hRun⟩ := minimize_descent
  obtain ⟨t, hNot, -⟩ := exists_iterate_descent
  rw [hIterates, hRun]
  exact ⟨rfl, rfl, rfl, hNot⟩

theorem minimize_converged_descent :
    (minimize Kernel.exact loose descent #v[0]).minimization.converged = true ∧
      ∃ before last, iterates Kernel.exact loose descent #v[0] = before ++ [last] ∧
        EndsAtSolution Kernel.exact loose descent #v[0] last ∧
        ∃ y ∈ before, (minimize Kernel.exact loose descent #v[0]).minimization.x = y.x ∧
          ∀ z ∈ iterates Kernel.exact loose descent #v[0],
            ¬ z.Better (scaledTolerance 1 #v[0]) y := by
  have hConverged : (minimize Kernel.exact loose descent #v[0]).minimization.converged = true := by
    rw [minimize_descent.2]
    rfl
  obtain ⟨before, last, hIterates, hEnds, hLast | hKept⟩ :=
    minimize_converged one_ne_zero hConverged
  · have hEnd : some (descent.at #v[1]) = some last := by
      rw [← List.getLast?_concat (l := before) (a := last), ← hIterates, minimize_descent.1]
      rfl
    rw [minimize_descent.2, ← Option.some.inj hEnd] at hLast
    exact absurd (ext_get_iff.mp hLast 0) zero_ne_one
  · exact ⟨hConverged, before, last, hIterates, hEnds, hKept⟩

end PlaneSketch
