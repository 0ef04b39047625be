import PlaneSketch.Proofs.LinearAlgebra.Saddle
import PlaneSketch.Proofs.Optimize.Exact

/-!
# Quadratics under affine constraints

Differences are exact on polynomials of degree two, so that in exact arithmetic a method sees a
quadratic as it is.

* `quadratic`: half a quadratic form, a linear form and a constant, with affine residuals.
* `gradient_quadratic`, `jacobian_quadratic`, `lagrangianHessian_quadratic`: **the differences are
  the derivatives**, with any step.
* `objective_quadratic_lt`: **where the optimality conditions hold, every other feasible point is
  worse.**
-/

namespace PlaneSketch

variable {m n : Nat}

/-! ## Coordinates -/

/-- The direction of a coordinate. -/
noncomputable def axisVector (j : Fin n) : EuclideanSpace ℝ (Fin n) := EuclideanSpace.single j 1

theorem inner_axisVector (v : Vector ℝ n) (j : Fin n) :
    inner ℝ (euclidean v) (axisVector j) = v.get j := by
  rw [axisVector, EuclideanSpace.inner_single_right]
  simp [euclidean]

theorem inner_axisVector_linear (a : Mat ℝ m n) (i : Fin m) (j : Fin n) :
    inner ℝ (axisVector i) (a.linear (axisVector j)) = a.entry i j := by
  rw [axisVector, axisVector, Mat.linear, EuclideanSpace.inner_single_left]
  simp only [conj_trivial, Matrix.toLpLin_apply, PiLp.ofLp_single, Matrix.mulVec_single,
    MulOpposite.op_one, one_smul, Matrix.col_apply, Matrix.of_apply, one_mul]
  rfl

/-- Moving one coordinate adds a multiple of its direction. -/
theorem euclidean_set_add (x : Vector ℝ n) (j : Fin n) (t : ℝ) :
    euclidean (x.set j (x.get j + t) j.isLt) = euclidean x + t • axisVector j := by
  ext i
  have hEntry : (x.set j (x.get j + t) j.isLt).get i =
      if (j : Nat) = i then x.get j + t else x.get i := Vector.getElem_set j.isLt i.isLt
  change (x.set j (x.get j + t) j.isLt).get i = x.get i + t * (axisVector j).ofLp i
  rw [hEntry, axisVector, PiLp.single_apply]
  by_cases hi : i = j
  · rw [if_pos hi, hi, if_pos rfl, mul_one]
  · rw [if_neg hi, if_neg fun hEq => hi (Fin.ext hEq.symm), mul_zero, add_zero]

/-! ## The problem -/

/-- Half the quadratic form of `h`, the linear form `q` and the constant `r`, under the constraints
`a·x = b`. -/
noncomputable def quadratic (h : Mat ℝ n n) (q : Vector ℝ n) (r : ℝ) (a : Mat ℝ m n)
    (b : Vector ℝ m) : Problem ℝ n m where
  objective x := dotInOrder x (h.mulVec x) / 2.0 + dotInOrder q x + r
  residuals x := a.mulVec x - b

section Derivatives

variable {h : Mat ℝ n n} {q : Vector ℝ n} {r : ℝ} {a : Mat ℝ m n} {b : Vector ℝ m}
  {x y : Vector ℝ n} {step : ℝ}

theorem objective_quadratic (h : Mat ℝ n n) (q : Vector ℝ n) (r : ℝ) (a : Mat ℝ m n)
    (b : Vector ℝ m) (x : Vector ℝ n) : (quadratic h q r a b).objective x =
      dotInOrder x (h.mulVec x) / 2 + dotInOrder q x + r := by
  have hTwo : (2.0 : ℝ) = 2 := by norm_num
  rw [quadratic, hTwo]

/-- The objective at a point that is displaced by `d`. -/
theorem objective_quadratic_of_euclidean (hSymmetric : h.IsSymmetric)
    {d : EuclideanSpace ℝ (Fin n)} (hy : euclidean y = euclidean x + d) :
    (quadratic h q r a b).objective y = (quadratic h q r a b).objective x +
      inner ℝ (euclidean (h.mulVec x + q)) d + inner ℝ d (h.linear d) / 2 := by
  have hMixed : inner ℝ (euclidean x) (h.linear d) = inner ℝ (h.linear (euclidean x)) d :=
    (hSymmetric.isSymmetric_linear _ _).symm
  have hSwap : inner ℝ d (h.linear (euclidean x)) = inner ℝ (h.linear (euclidean x)) d :=
    real_inner_comm _ _
  simp only [objective_quadratic, dotInOrder_eq_inner, euclidean_mulVec, euclidean_add, hy, map_add,
    inner_add_left, inner_add_right, hMixed, hSwap]
  ring

theorem objective_quadratic_set (hSymmetric : h.IsSymmetric) (x : Vector ℝ n) (j : Fin n) (t : ℝ) :
    (quadratic h q r a b).objective (x.set j (x.get j + t) j.isLt) =
      (quadratic h q r a b).objective x + t * (h.mulVec x + q).get j +
        t * t * h.entry j j / 2 := by
  rw [objective_quadratic_of_euclidean hSymmetric (euclidean_set_add x j t), map_smul,
    real_inner_smul_right, real_inner_smul_left, real_inner_smul_right, inner_axisVector,
    inner_axisVector_linear, mul_assoc]

/-- **The central difference of a quadratic is its gradient.** -/
theorem gradient_quadratic (hSymmetric : h.IsSymmetric) (hStep : step ≠ 0) (x : Vector ℝ n) :
    (quadratic h q r a b).gradient step x = h.mulVec x + q := by
  have hCentral : ∀ (j : Fin n) (t : ℝ),
      (quadratic h q r a b).objective (x.set j (x.get j + t) j.isLt) -
        (quadratic h q r a b).objective (x.set j (x.get j - t) j.isLt) =
          2 * t * (h.mulVec x + q).get j := by
    intro j t
    rw [sub_eq_add_neg (x.get j), objective_quadratic_set hSymmetric,
      objective_quadratic_set hSymmetric]
    ring
  refine Vector.ext fun j hj => ?_
  rw [Problem.gradient, Vector.getElem_ofFn]
  exact differenceQuotient (relativeStep_ne_zero hStep _) (hCentral ⟨j, hj⟩ _)

theorem residuals_quadratic_set (x : Vector ℝ n) (i : Fin m) (j : Fin n) (t : ℝ) :
    ((quadratic h q r a b).residuals (x.set j (x.get j + t) j.isLt)).get i =
      ((quadratic h q r a b).residuals x).get i + t * a.entry i j := by
  have hMoved : euclidean ((quadratic h q r a b).residuals (x.set j (x.get j + t) j.isLt)) =
      euclidean ((quadratic h q r a b).residuals x) + t • a.linear (axisVector j) := by
    simp only [quadratic, euclidean_sub, euclidean_mulVec, euclidean_set_add, map_add, map_smul]
    abel
  rw [← inner_axisVector, hMoved, inner_add_left, real_inner_smul_left, inner_axisVector,
    real_inner_comm, inner_axisVector_linear]

/-- **The central difference of affine residuals is their matrix.** -/
theorem jacobian_quadratic (hStep : step ≠ 0) (x : Vector ℝ n) :
    (quadratic h q r a b).jacobian step x = a := by
  refine Mat.ext_entry fun i j => ?_
  rw [Problem.entry_jacobian]
  refine differenceQuotient (relativeStep_ne_zero hStep _) ?_
  rw [sub_eq_add_neg (x.get j), residuals_quadratic_set, residuals_quadratic_set]
  ring

/-- The Lagrangian of a quadratic under affine constraints is another quadratic. -/
theorem lagrangian_quadratic (μ : Vector ℝ m) (x : Vector ℝ n) :
    (quadratic h q r a b).lagrangian μ x =
      (quadratic h (a.transpose.mulVec μ + q) (r - dotInOrder b μ) a b).objective x := by
  have hAdjoint := a.dotInOrder_transpose_mulVec μ x
  rw [dotInOrder_comm μ] at hAdjoint
  have hResiduals : dotInOrder ((quadratic h q r a b).residuals x) μ =
      dotInOrder (a.mulVec x) μ - dotInOrder b μ := by
    simp only [quadratic, dotInOrder_eq_inner, euclidean_sub, inner_sub_left]
  simp only [Problem.lagrangian, objective_quadratic, add_dotInOrder, hAdjoint, hResiduals]
  ring

/-- The second difference of a quadratic along two coordinates is an entry of its matrix. -/
theorem mixedDifference_quadratic (hSymmetric : h.IsSymmetric) (hStep : step ≠ 0) (μ : Vector ℝ m)
    (x : Vector ℝ n) (i j : Fin n) :
    (quadratic h q r a b).mixedDifference μ step x i j = h.entry i j := by
  have hNudged : ∀ s t : ℝ, euclidean (Problem.nudge (Problem.nudge x i s) j t) =
      euclidean x + (s • axisVector i + t • axisVector j) := by
    intro s t
    rw [Problem.nudge, Problem.nudge, euclidean_set_add, euclidean_set_add, add_assoc]
  have hSwap : inner ℝ (axisVector j) (h.linear (axisVector i)) = h.entry i j := by
    rw [inner_axisVector_linear, hSymmetric.entry_comm]
  have hDirect : inner ℝ (axisVector i) (h.linear (axisVector j)) = h.entry i j :=
    inner_axisVector_linear h i j
  have hi := relativeStep_ne_zero hStep (x.get i)
  have hj := relativeStep_ne_zero hStep (x.get j)
  rw [Problem.mixedDifference]
  simp only [lagrangian_quadratic, objective_quadratic_of_euclidean hSymmetric (hNudged _ _),
    map_add, map_smul, inner_add_left, inner_add_right, real_inner_smul_left,
    real_inner_smul_right, hSwap, hDirect]
  rw [div_eq_iff (mul_ne_zero (mul_ne_zero (by norm_num) hi) hj)]
  norm_num
  ring

/-- **The second differences of the Lagrangian are the matrix of the quadratic**, whatever the
multipliers are. -/
theorem lagrangianHessian_quadratic (hSymmetric : h.IsSymmetric) (hStep : step ≠ 0)
    (μ : Vector ℝ m) (x : Vector ℝ n) :
    (quadratic h q r a b).lagrangianHessian μ step x = h := by
  have hWide : step * 100.0 ≠ 0 := mul_ne_zero hStep (by norm_num)
  refine Mat.ext_entry fun i j => ?_
  rw [Problem.lagrangianHessian, Mat.entry_ofFn]
  split
  · next hLe => rw [Mat.entry_ofFn, if_pos hLe, mixedDifference_quadratic hSymmetric hWide]
  · next hGt =>
    -- the lower half is copied from the upper one
    rw [Mat.entry_ofFn, if_pos (le_of_not_ge hGt), mixedDifference_quadratic hSymmetric hWide,
      hSymmetric.entry_comm]

/-! ## The minimum -/

/-- The optimality conditions, at a point and with multipliers. -/
structure Optimality (h : Mat ℝ n n) (q : Vector ℝ n) (a : Mat ℝ m n) (b : Vector ℝ m)
    (x : Vector ℝ n) (μ : Vector ℝ m) : Prop where
  dual : h.mulVec x + q + a.transpose.mulVec μ = 0
  primal : a.mulVec x = b

/-- A step of the quadratic model leads to where the optimality conditions hold. -/
theorem optimality_add {p : Vector ℝ n} {μ : Vector ℝ m}
    (hDual : h.mulVec p + a.transpose.mulVec μ = -(h.mulVec x + q))
    (hPrimal : a.mulVec p = -(a.mulVec x - b)) : Optimality h q a b (x + p) μ := by
  constructor
  · have hSum := congrArg euclidean hDual
    refine euclidean_injective ?_
    simp only [mulVec_add, euclidean_add, euclidean_neg, euclidean_zero] at hSum ⊢
    rw [add_right_comm (euclidean (h.mulVec x)), add_assoc (_ + _), hSum, add_neg_cancel]
  · rw [mulVec_add, hPrimal]
    refine euclidean_injective ?_
    simp only [euclidean_add, euclidean_neg, euclidean_sub]
    abel

/-- **Where the optimality conditions hold, every other feasible point is worse.** -/
theorem objective_quadratic_lt (hSymmetric : h.IsSymmetric) (hPositive : h.IsPositiveDefinite)
    {μ : Vector ℝ m} (hx : Optimality h q a b x μ) (hy : a.mulVec y = b) (hNe : y ≠ x) :
    (quadratic h q r a b).objective x < (quadratic h q r a b).objective y := by
  have hMoved : euclidean y = euclidean x + euclidean (y - x) := by
    rw [euclidean_sub, add_sub_cancel]
  have hAlong : a.mulVec (y - x) = 0 := by
    rw [mulVec_sub, hx.primal, hy]
    exact sub_eq_zero_iff.mpr rfl
  have hFlat : inner ℝ (euclidean (h.mulVec x + q)) (euclidean (y - x)) = (0 : ℝ) := by
    have hSum := congrArg (dotInOrder · (y - x)) hx.dual
    simp only [add_dotInOrder _ (a.transpose.mulVec μ), Mat.dotInOrder_transpose_mulVec, hAlong,
      dotInOrder_zero, zero_dotInOrder, add_zero] at hSum
    rwa [← dotInOrder_eq_inner]
  have hCurved := hPositive (y - x) fun hSame => hNe (sub_eq_zero_iff.mp hSame)
  rw [dotInOrder_eq_inner, euclidean_mulVec] at hCurved
  rw [objective_quadratic_of_euclidean hSymmetric hMoved, hFlat]
  linarith

/-- **A step of the quadratic model from a feasible point achieves half of the descent that its
slope promises.** -/
theorem objective_quadratic_add (hSymmetric : h.IsSymmetric) {p : Vector ℝ n} {μ : Vector ℝ m}
    (hDual : h.mulVec p + a.transpose.mulVec μ = -(h.mulVec x + q)) (hPrimal : a.mulVec p = 0) :
    (quadratic h q r a b).objective (x + p) =
      (quadratic h q r a b).objective x + dotInOrder (h.mulVec x + q) p / 2 := by
  have hCurved : dotInOrder p (h.mulVec p) = -dotInOrder (h.mulVec x + q) p := by
    have hSum := congrArg (dotInOrder · p) hDual
    simp only [add_dotInOrder (h.mulVec p), Mat.dotInOrder_transpose_mulVec, hPrimal,
      dotInOrder_zero, add_zero] at hSum
    rw [dotInOrder_comm, hSum]
    simp only [dotInOrder_eq_inner, euclidean_neg, inner_neg_left]
  rw [objective_quadratic_of_euclidean hSymmetric (euclidean_add x p), ← dotInOrder_eq_inner,
    ← euclidean_mulVec, ← dotInOrder_eq_inner, hCurved]
  ring

end Derivatives

end PlaneSketch
