import PlaneSketch.Proofs.Optimize.Newton

/-!
# The quadratic model of a step

A step and its multipliers solve a system, which is about the minimum of a model: half the form of
the Hessian and the slope along the gradient, under the linearised constraints.

* `modelValue`: the value of the model at a step.
* `IsModelMinimum`: the one step that is best among those that meet the constraints.
* `Kernel.solveKkt_isModelMinimum`: **the system is solved by the minimum of the model whenever the
  constraints can be met**, also when some of them follow from others, and the correction towards
  the constraints leaves this step as it is.
-/

namespace PlaneSketch

variable {m n : Nat}

/-- Half the form of the Hessian, and the slope along the gradient. -/
noncomputable def modelValue (h : Mat ℝ n n) (g p : Vector ℝ n) : ℝ :=
  dotInOrder p (h.mulVec p) / 2.0 + dotInOrder g p

/-- The step meets the linearised constraints, and every other step that does is worse. -/
structure IsModelMinimum (h : Mat ℝ n n) (a : Mat ℝ m n) (g : Vector ℝ n) (c : Vector ℝ m)
    (p : Vector ℝ n) : Prop where
  feasible : a.mulVec p = -c
  least (q : Vector ℝ n) (hq : a.mulVec q = -c) (hNe : q ≠ p) : modelValue h g p < modelValue h g q

section Model

variable {h : Mat ℝ n n} {a : Mat ℝ m n} {g p q : Vector ℝ n} {c : Vector ℝ m}

/-- A step that is no worse than the minimum is the minimum. -/
theorem IsModelMinimum.eq_of_le (hp : IsModelMinimum h a g c p) (hq : a.mulVec q = -c)
    (hLe : modelValue h g q ≤ modelValue h g p) : q = p := by
  by_contra hNe
  exact absurd (hp.least q hq hNe) (not_lt_of_ge hLe)

theorem modelValue_eq_objective (h : Mat ℝ n n) (a : Mat ℝ m n) (g : Vector ℝ n) (c : Vector ℝ m)
    (p : Vector ℝ n) : modelValue h g p = (quadratic h g 0 a (-c)).objective p :=
  (add_zero _).symm

/-- **The minimum of the model is where the optimality conditions hold.** -/
theorem isModelMinimum_of_dual (hSymmetric : h.IsSymmetric) (hPositive : h.IsPositiveDefinite)
    {μ : Vector ℝ m} (hDual : h.mulVec p + a.transpose.mulVec μ = -g)
    (hPrimal : a.mulVec p = -c) : IsModelMinimum h a g c p := by
  have hOptimal : Optimality h g a (-c) p μ := by
    refine ⟨euclidean_injective ?_, hPrimal⟩
    have hSum := congrArg euclidean hDual
    simp only [euclidean_add, euclidean_neg, euclidean_zero] at hSum ⊢
    rw [add_right_comm, hSum, neg_add_cancel]
  refine ⟨hPrimal, fun q hq hNe => ?_⟩
  rw [modelValue_eq_objective h a g c, modelValue_eq_objective h a g c]
  exact objective_quadratic_lt hSymmetric hPositive hOptimal hq hNe

end Model

namespace Kernel

/-- **The system is solved by the minimum of the model whenever the constraints can be met**,
however many of them follow from others.  The step meets the constraints, so that its part across
them is the right one already. -/
theorem solveKkt_isModelMinimum {k : Kernel ℝ} (hKernel : k.SolvesLeastSquares) {h : Mat ℝ n n}
    (hSymmetric : h.IsSymmetric) (hPositive : h.IsPositiveDefinite) (a : Mat ℝ m n)
    (g : Vector ℝ n) {c : Vector ℝ m} (hRange : ∃ y, a.mulVec y = c) :
    ∃ p μ, k.solveKkt h a g c = some (p, μ) ∧ h.mulVec p + a.transpose.mulVec μ = -g ∧
      a.mulVec p = -c ∧ IsModelMinimum h a g c p ∧ k.withRangeStep a c p = some p := by
  have hSolvable : ∃ y, a.mulVec y = -c := by
    obtain ⟨y, rfl⟩ := hRange
    exact ⟨-y, mulVec_neg a y⟩
  obtain ⟨p, μ, hSystem, hDual, hPrimal⟩ := hKernel.exists_solveKkt hPositive g hSolvable
  exact ⟨p, μ, hSystem, hDual, hPrimal,
    isModelMinimum_of_dual hSymmetric hPositive hDual hPrimal, withRangeStep_of_mulVec_eq hPrimal⟩

/-- The step from the origin to the point of the line through `(2, 0)` and `(0, 2)` that is next to
`(3, 0)`, with the line given twice. -/
theorem solveKkt_isModelMinimum_bowl :
    (∃ y, twice.mulVec y = #v[-2, -2]) ∧
      ∃ μ, exact.solveKkt bowl twice #v[-3, 0] #v[-2, -2] = some (#v[5 / 2, -1 / 2], μ) ∧
        exact.withRangeStep twice #v[-2, -2] #v[5 / 2, -1 / 2] = some #v[5 / 2, -1 / 2] := by
  have hRange : ∃ y, twice.mulVec y = #v[-2, -2] :=
    ⟨#v[-2, 0], by simp [mulVec_twice]⟩
  obtain ⟨p, μ, hSystem, -, hPrimal, hMinimum, hRangeStep⟩ :=
    solveKkt_isModelMinimum isExact_exact.solvesLeastSquares isSymmetric_bowl
      isPositiveDefinite_bowl twice #v[-3, 0] hRange
  have hLine : p.get 0 + p.get 1 = 2 := by
    simpa [mulVec_twice] using ext_get_iff.mp hPrimal 0
  have hStep : (#v[5 / 2, -1 / 2] : Vector ℝ 2) = p := by
    refine hMinimum.eq_of_le ?_ ?_
    · have hEntry : (5 / 2 + -1 / 2 : ℝ) = - -2 := by norm_num
      rw [mulVec_twice, ext_get_iff, Fin.forall_fin_two, get_neg, get_neg]
      exact ⟨hEntry, hEntry⟩
    · have hTwo : (2.0 : ℝ) = 2 := by norm_num
      rw [modelValue, modelValue, hTwo, dotInOrder_mulVec_bowl, dotInOrder_mulVec_bowl,
        dotInOrder_real, dotInOrder_real, Fin.sum_univ_two, Fin.sum_univ_two,
        eq_sub_of_add_eq' hLine]
      change (5 / 2 * (5 / 2) + -1 / 2 * (-1 / 2)) / 2 + (-3 * (5 / 2) + 0 * (-1 / 2)) ≤
        (p.get 0 * p.get 0 + (2 - p.get 0) * (2 - p.get 0)) / 2 +
          (-3 * p.get 0 + 0 * (2 - p.get 0))
      nlinarith [mul_self_nonneg (p.get 0 - 5 / 2)]
  rw [hStep]
  exact ⟨hRange, μ, hSystem, hRangeStep⟩

end Kernel

end PlaneSketch
