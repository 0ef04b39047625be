import PlaneSketch.Proofs.Optimize.Outcome
import PlaneSketch.Proofs.Optimize.Satisfied
import PlaneSketch.Proofs.Solve

/-!
# What a reported convergence means

A run tests its last iterate with a tolerance scaled there, and chooses what it gives back with a
tolerance scaled at its start.  In exact arithmetic the two still bound the residuals together.

* `residual_le_of_converged`: **the residuals at the point that a converged run gives back are
  within the tolerance**, scaled to the greater of the start and the last iterate.
* `Solve.exists_minimize_of_run`: what a completed solve minimises and where it writes the result.
* `converged_bounds_residuals`: the same of the equations of a sketch after a solve.
-/

namespace PlaneSketch

open Scalar

variable {α : Type} [Scalar α] {n m : Nat}

section Total

variable [Total α] {k : Kernel α} {config : Config α} {p : Problem α n m} {x : Vector α n}

theorem scaledTolerance_le {tolerance a : α} (hTolerance : 0 ≤ tolerance) {y : Vector α n}
    (h : maxAbs y ≤ a) : scaledTolerance tolerance y ≤ tolerance * (1 + a) :=
  Total.mul_le_mul_left hTolerance (Total.add_le_add_left 1 h)

/-- **The residuals at the point that a converged run gives back are within the tolerance.** -/
theorem residual_le_of_converged (hTolerance : 0 ≤ config.constraintTolerance) (hn : n ≠ 0)
    (h : (minimize k config p x).minimization.converged = true) :
    ∃ last, (iterates k config p x).getLast? = some last ∧
      ∀ c ∈ p.residuals (minimize k config p x).minimization.x,
        Scalar.abs c ≤
          config.constraintTolerance * (1 + larger (maxAbs x) (maxAbs last.x)) := by
  obtain ⟨before, last, hIterates, hEnds⟩ := exists_endsAtSolution hn h
  obtain ⟨w, hw, converged, iterations, hRun, -, hUnbeaten⟩ := exists_minimize_eq k config p x
  have hLast : last.violation ≤
      config.constraintTolerance * (1 + larger (maxAbs x) (maxAbs last.x)) :=
    Ordered.trans hEnds.feasible
      (scaledTolerance_le hTolerance (le_larger_right _ (isNumber_maxAbs _)))
  have hKept : w.violation ≤
      config.constraintTolerance * (1 + larger (maxAbs x) (maxAbs last.x)) := by
    refine Iterate.Better.violation_le_of_not (hUnbeaten last ?_) (fun _ => ?_) hLast
    · exact hIterates ▸ List.mem_append_right before List.mem_cons_self
    · exact scaledTolerance_le hTolerance (le_larger_left (isNumber_maxAbs _) _)
  refine ⟨last, by rw [hIterates, List.getLast?_concat], fun c hc => ?_⟩
  rw [hRun, eq_at_of_mem_iterates hw] at hc
  rw [eq_at_of_mem_iterates hw] at hKept
  exact Ordered.trans (abs_le_maxAbs hc (Total.isNumber _)) hKept

end Total

/-! ## After a solve -/

namespace Solve

variable {k : Kernel α} {config : Config α} {s : Sketch α} {active : Option PointRef}
  {g : Geometry α} {l : Linkage α} {residuals : List (Residual α)} {inactive : Nat}

omit [Scalar α] in
/-- Every equation that is bound is handed to the method. -/
theorem mem_of_bindAll {constraints : List (Constraint α)} {c : Constraint α} {b : Residual α}
    (hAll : bindAll g l constraints = .ok (residuals, inactive)) (hc : c ∈ constraints)
    (hActive : ¬ l.isInactive g c = true)
    (hBind : Residual.bind g c.kind c.operands = .ok (some b)) : b ∈ residuals := by
  induction constraints generalizing residuals inactive with
  | nil => exact absurd hc List.not_mem_nil
  | cons d rest ih =>
    rw [bindAll] at hAll
    split at hAll
    · next hInactive =>
      obtain ⟨⟨rest', count⟩, hRest, hEq⟩ := map_eq_ok_iff.mp hAll
      obtain ⟨rfl, -⟩ := Prod.mk.inj hEq
      rcases List.mem_cons.mp hc with rfl | hc
      · exact absurd hInactive hActive
      · exact ih hRest hc
    · obtain ⟨bound, hBound, hAll⟩ := bind_eq_ok_iff.mp hAll
      obtain ⟨⟨rest', count⟩, hRest, hEq⟩ := bind_eq_ok_iff.mp hAll
      obtain ⟨rfl, -⟩ := Prod.mk.inj (Except.ok.inj hEq)
      rcases List.mem_cons.mp hc with rfl | hc
      · rw [hBind, Except.ok.injEq] at hBound
        subst hBound
        exact List.mem_append_left _ List.mem_cons_self
      · exact List.mem_append_right _ (ih hRest hc)

theorem value_mem_residualValues {b : Residual α} (hb : b ∈ residuals) (g : Geometry α) :
    b.value g ∈ residualValues residuals g := by
  rw [residualValues, Vector.mem_mk, List.mem_toArray]
  exact List.mem_map_of_mem hb

/-- What a completed solve minimises, and where it writes the result. -/
theorem exists_minimize_of_run {r : Solved α} (h : run k config s active = .ok r)
    (hFree : r.report.degreesOfFreedom ≠ 0) :
    ∃ l residuals inactive, Linkage.build s.geometry s.constraints.items active = .ok l ∧
      bindAll s.geometry l s.constraints.items = .ok (residuals, inactive) ∧
      (l.gather s.geometry).size ≠ 0 ∧
      let result := (minimize k config (problem s.geometry l residuals
        (snapshot? s.geometry active) (l.gather s.geometry).size)
          (l.gather s.geometry).toVector).minimization
      r.report.converged = result.converged ∧
        r.sketch.geometry = l.scatter s.geometry result.x.toArray := by
  obtain ⟨l, residuals, inactive, hBuild, hBind, rfl⟩ := (run_eq_ok_iff r).mp h
  refine ⟨l, residuals, inactive, hBuild, hBind, ?_⟩
  rw [outcome] at hFree ⊢
  split at hFree
  · exact absurd rfl hFree
  · next hSome =>
    rw [if_neg hSome]
    exact ⟨hSome, rfl, rfl⟩

end Solve

/-- **Convergence bounds the residuals**, at the point that a run gives back and on the geometry
that a solve leaves. -/
theorem converged_bounds_residuals [Total α] (k : Kernel α) (config : Config α)
    (hTolerance : 0 ≤ config.constraintTolerance) :
    (∀ {n m : Nat} (p : Problem α n m) (x : Vector α n), n ≠ 0 →
      (minimize k config p x).minimization.converged = true →
        ∃ last, (iterates k config p x).getLast? = some last ∧
          ∀ c ∈ p.residuals (minimize k config p x).minimization.x,
            Scalar.abs c ≤
              config.constraintTolerance * (1 + larger (maxAbs x) (maxAbs last.x))) ∧
    ∀ (s : Sketch α) (active : Option PointRef) (r : Solved α),
      Solve.run k config s active = .ok r → r.report.degreesOfFreedom ≠ 0 →
      r.report.converged = true →
        ∃ l residuals inactive last,
          Linkage.build s.geometry s.constraints.items active = .ok l ∧
          Solve.bindAll s.geometry l s.constraints.items = .ok (residuals, inactive) ∧
          (iterates k config (Solve.problem s.geometry l residuals
            (Solve.snapshot? s.geometry active) (l.gather s.geometry).size)
              (l.gather s.geometry).toVector).getLast? = some last ∧
          ∀ c ∈ s.constraints.items, ¬ l.isInactive s.geometry c = true →
            ∀ b, Residual.bind s.geometry c.kind c.operands = .ok (some b) →
              Scalar.abs (b.value r.sketch.geometry) ≤ config.constraintTolerance *
                (1 + larger (maxAbs (l.gather s.geometry).toVector) (maxAbs last.x)) := by
  refine ⟨fun p x => residual_le_of_converged hTolerance, fun s active r hRun hFree h => ?_⟩
  obtain ⟨l, residuals, inactive, hBuild, hAll, hSize, hConverged, hGeometry⟩ :=
    Solve.exists_minimize_of_run hRun hFree
  obtain ⟨last, hLast, hBound⟩ :=
    residual_le_of_converged hTolerance hSize (hConverged.symm.trans h)
  refine ⟨l, residuals, inactive, last, hBuild, hAll, hLast, fun c hc hActive b hBind => ?_⟩
  rw [hGeometry]
  exact hBound _ (Solve.value_mem_residualValues (Solve.mem_of_bindAll hAll hc hActive hBind) _)

/-- A segment from the origin to `(3, 4)`, which is to be of length 5. -/
noncomputable def bar : Sketch ℝ :=
  ⟨⟨[⟨⟨0⟩, ⟨0, 0⟩, ⟨3, 4⟩⟩], []⟩, ⟨[⟨⟨0⟩, .length, [.segment ⟨0⟩, .value 5]⟩], .zero⟩⟩

theorem exists_build_bar : ∃ l, Linkage.build bar.geometry bar.constraints.items none = .ok l ∧
    Solve.bindAll bar.geometry l bar.constraints.items = .ok ([.segmentLength 0 5], 0) ∧
    (l.gather bar.geometry).size = 4 ∧
    l.scatter bar.geometry (l.gather bar.geometry) = bar.geometry ∧
    ∀ c ∈ bar.constraints.items, l.isInactive bar.geometry c = false := by
  refine ⟨_, rfl, rfl, rfl, rfl, fun c hc => ?_⟩
  obtain rfl := List.mem_singleton.mp hc
  rfl

theorem value_bar : (Residual.segmentLength 0 5).value bar.geometry = (0 : ℝ) := by
  have hLength : Real.sqrt ((3 - 0) * (3 - 0) + (4 - 0) * (4 - 0)) = 5 := by
    rw [show ((3 : ℝ) - 0) * (3 - 0) + (4 - 0) * (4 - 0) = 5 ^ 2 by norm_num]
    exact Real.sqrt_sq (by norm_num)
  exact sub_eq_zero.mpr hLength

theorem exists_run_bar : ∃ r, Solve.run Kernel.exact newton bar none = .ok r ∧
    r.report.degreesOfFreedom ≠ 0 ∧ r.report.converged = true := by
  obtain ⟨l, hBuild, hAll, hSize, hScatter, -⟩ := exists_build_bar
  refine ⟨_, (Solve.run_eq_ok_iff _).mpr ⟨l, _, _, hBuild, hAll, rfl⟩, ?_⟩
  have hSome : (l.gather bar.geometry).size ≠ 0 := by
    rw [hSize]
    decide
  rw [Solve.outcome, if_neg hSome]
  refine ⟨hSome, ?_⟩
  let p := Solve.problem bar.geometry l [.segmentLength 0 5] none (l.gather bar.geometry).size
  have hResiduals : p.residuals (l.gather bar.geometry).toVector = 0 := by
    change Solve.residualValues _ (l.scatter bar.geometry (l.gather bar.geometry)) = 0
    rw [hScatter]
    exact ext_get_iff.mpr (Fin.forall_fin_one.mpr value_bar)
  have hGradient : p.gradient newton.finiteDifferenceStep (l.gather bar.geometry).toVector = 0 :=
    Problem.gradient_eq_zero (fun _ _ => rfl) _
  have hStart := minimize_of_satisfied Kernel.keepsZero_exact admissible_newton hSome hResiduals
    hGradient
  exact congrArg Minimization.converged hStart

theorem converged_bounds_residuals_bar :
    (∃ last, (iterates Kernel.exact loose descent #v[0]).getLast? = some last ∧
      ∀ c ∈ descent.residuals (minimize Kernel.exact loose descent #v[0]).minimization.x,
        |c| ≤ 1 * (1 + larger (maxAbs #v[0]) (maxAbs last.x))) ∧
    ∃ r l, Solve.run Kernel.exact newton bar none = .ok r ∧ r.report.converged = true ∧
      Linkage.build bar.geometry bar.constraints.items none = .ok l ∧
      ∃ last : Vector ℝ (l.gather bar.geometry).size,
        |(Residual.segmentLength 0 5).value r.sketch.geometry| ≤ newton.constraintTolerance *
          (1 + larger (maxAbs (l.gather bar.geometry).toVector) (maxAbs last)) := by
  obtain ⟨r, hRun, hFree, hConverged⟩ := exists_run_bar
  obtain ⟨l, residuals, inactive, last, hBuild, -, -, hBound⟩ :=
    (converged_bounds_residuals Kernel.exact newton (by norm_num [newton, Config.default])).2 bar
      none r hRun hFree hConverged
  obtain ⟨l', hBuild', -, -, -, hActive⟩ := exists_build_bar
  obtain rfl := Except.ok.inj (hBuild.symm.trans hBuild')
  refine ⟨?_, r, l, hRun, hConverged, hBuild, last.x, ?_⟩
  · exact (converged_bounds_residuals Kernel.exact loose (by norm_num [loose])).1 descent #v[0]
      one_ne_zero (by rw [minimize_descent.2]; rfl)
  · exact hBound _ List.mem_cons_self (by rw [hActive _ List.mem_cons_self]; simp) _ rfl

end PlaneSketch
