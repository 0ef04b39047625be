import Mathlib.Algebra.MvPolynomial.Degrees
import Mathlib.Analysis.Calculus.Gradient.Basic
import Mathlib.Analysis.InnerProductSpace.Calculus
import PlaneSketch.Proofs.LinearAlgebra.Update
import PlaneSketch.Proofs.Optimize.Quadratic

/-!
# Differences and derivatives

The differences of a problem whose objective and residuals are polynomials of degree at most two.
Such a polynomial is half a quadratic form, a linear form and a constant, and so is every sum of
them with weights; the differences see no more of a problem than one such function at a time.

* `IsQuadratic`: the polynomials of degree at most two; `Quadric`: their normal form, which each of
  them has (`IsQuadratic.exists_value_eq`).
* `Quadric.hasGradientAt`, `Quadric.hasFDerivAt_gradient`: the derivatives of a normal form.
* `Problem.gradient_of_value`, `Problem.lagrangianHessian_of_value`: its differences.
* `differences_of_isQuadratic`: **the differences are the derivatives.**
-/

namespace PlaneSketch

variable {l m n : Nat}

/-- A polynomial of degree at most two. -/
def IsQuadratic (f : Vector ℝ n → ℝ) : Prop :=
  ∃ P : MvPolynomial (Fin n) ℝ, P.totalDegree ≤ 2 ∧ ∀ x, f x = MvPolynomial.eval x.get P

/-- A function of the entries of a vector, read on Euclidean space. -/
def onEuclidean {β : Type} (f : Vector ℝ n → β) (v : EuclideanSpace ℝ (Fin n)) : β :=
  f (Vector.ofFn v.ofLp)

theorem onEuclidean_euclidean {β : Type} (f : Vector ℝ n → β) (x : Vector ℝ n) :
    onEuclidean f (euclidean x) = f x :=
  congrArg f (Vector.ext fun _ hi => Vector.getElem_ofFn hi)

/-! ## Matrices -/

namespace Mat

theorem entry_add (a b : Mat ℝ m n) (i : Fin m) (j : Fin n) :
    (a + b).entry i j = a.entry i j + b.entry i j := by
  simp [entry]

theorem isSymmetric_zero : (0 : Mat ℝ n n).IsSymmetric := by
  refine isSymmetric_iff.mpr fun i j => ?_
  simp [entry]

theorem IsSymmetric.add {a b : Mat ℝ n n} (ha : a.IsSymmetric) (hb : b.IsSymmetric) :
    (a + b).IsSymmetric := by
  refine isSymmetric_iff.mpr fun i j => ?_
  rw [entry_add, entry_add, ha.entry_comm, hb.entry_comm]

theorem entry_outer (v : Vector ℝ m) (w : Vector ℝ n) (i : Fin m) (j : Fin n) :
    (outer v w).entry i j = v.get i * w.get j := by
  simp [outer, entry, Vector.get]

theorem mulVec_outer (v : Vector ℝ m) (w x : Vector ℝ n) :
    (outer v w).mulVec x = dotInOrder w x * v := by
  refine Vector.ext fun i hi => ?_
  have hRow : (outer v w)[i] = v[i] * w := by
    refine Vector.ext fun j hj => ?_
    rw [outer, Vector.getElem_map, Vector.getElem_map, Vector.getElem_hmul]
  rw [mulVec, Vector.getElem_map, hRow, smul_dotInOrder, Vector.getElem_hmul, mul_comm]

/-- The rows of the identity read off the entries. -/
theorem dotInOrder_identity (i : Fin n) (x : Vector ℝ n) :
    dotInOrder ((identity n : Mat ℝ n n).get i) x = x.get i := by
  have hRow := congrArg (·.get i) (identity_mulVec x)
  exact (Vector.getElem_map _ i.isLt).symm.trans hRow

end Mat

/-! ## Normal forms -/

/-- Half a quadratic form, a linear form and a constant. -/
structure Quadric (n : Nat) where
  hessian : Mat ℝ n n
  linear : Vector ℝ n
  constant : ℝ
  symmetric : hessian.IsSymmetric

namespace Quadric

noncomputable def value (F : Quadric n) : Vector ℝ n → ℝ :=
  (quadratic F.hessian F.linear F.constant (0 : Mat ℝ 0 n) 0).objective

theorem value_eq (F : Quadric n) (x : Vector ℝ n) :
    F.value x = dotInOrder x (F.hessian.mulVec x) / 2 + dotInOrder F.linear x + F.constant := by
  rw [value, objective_quadratic]

theorem exists_value_const (c : ℝ) : ∃ F : Quadric n, F.value = fun _ => c := by
  refine ⟨⟨0, 0, c, Mat.isSymmetric_zero⟩, funext fun x => ?_⟩
  rw [value_eq, Mat.zero_mulVec, dotInOrder_zero, zero_dotInOrder, zero_div, zero_add, zero_add]

theorem exists_value_linear (u : Vector ℝ n) :
    ∃ F : Quadric n, F.value = fun x => dotInOrder u x := by
  refine ⟨⟨0, u, 0, Mat.isSymmetric_zero⟩, funext fun x => ?_⟩
  rw [value_eq, Mat.zero_mulVec, dotInOrder_zero, zero_div, zero_add, add_zero]

/-- The product of two linear forms has both mixed products of their coefficients as its matrix. -/
theorem exists_value_product (u v : Vector ℝ n) :
    ∃ F : Quadric n, F.value = fun x => dotInOrder u x * dotInOrder v x := by
  refine ⟨⟨Mat.outer u v + Mat.outer v u, 0, 0, Mat.isSymmetric_iff.mpr fun i j => ?_⟩,
    funext fun x => ?_⟩
  · simp only [Mat.entry_add, Mat.entry_outer]
    ring
  · rw [value_eq, Mat.add_mulVec, Mat.mulVec_outer, Mat.mulVec_outer, dotInOrder_add,
      dotInOrder_smul, dotInOrder_smul, zero_dotInOrder, dotInOrder_comm x, dotInOrder_comm x]
    ring

theorem exists_value_add (F G : Quadric n) : ∃ E : Quadric n, E.value = F.value + G.value := by
  refine ⟨⟨F.hessian + G.hessian, F.linear + G.linear, F.constant + G.constant,
    F.symmetric.add G.symmetric⟩, funext fun x => ?_⟩
  rw [Pi.add_apply, value_eq, value_eq, value_eq, Mat.add_mulVec, dotInOrder_add, add_dotInOrder]
  ring

theorem exists_value_sum {ι : Type} (s : Finset ι) {f : ι → Vector ℝ n → ℝ}
    (hf : ∀ i ∈ s, ∃ F : Quadric n, F.value = f i) :
    ∃ F : Quadric n, F.value = ∑ i ∈ s, f i := by
  refine Finset.sum_induction f (fun g => ∃ F : Quadric n, F.value = g) ?_
    (exists_value_const 0) hf
  rintro _ _ ⟨F, rfl⟩ ⟨G, rfl⟩
  exact exists_value_add F G

/-- A weighted product of at most two entries. -/
theorem exists_value_monomial {s : Multiset (Fin n)} (hs : s.card ≤ 2) (c : ℝ) :
    ∃ F : Quadric n, F.value = fun x => c * (s.map x.get).prod := by
  obtain hZero | hOne | hTwo : s.card = 0 ∨ s.card = 1 ∨ s.card = 2 := by omega
  · obtain rfl := Multiset.card_eq_zero.mp hZero
    simpa using exists_value_const c
  · obtain ⟨i, rfl⟩ := Multiset.card_eq_one.mp hOne
    have hLinear := exists_value_linear (c * (Mat.identity n : Mat ℝ n n).get i)
    simpa [smul_dotInOrder, Mat.dotInOrder_identity] using hLinear
  · obtain ⟨i, j, rfl⟩ := Multiset.card_eq_two.mp hTwo
    have hProduct := exists_value_product (c * (Mat.identity n : Mat ℝ n n).get i)
      ((Mat.identity n : Mat ℝ n n).get j)
    simpa [smul_dotInOrder, Mat.dotInOrder_identity, mul_assoc] using hProduct

end Quadric

theorem eval_monomial_eq (x : Vector ℝ n) (d : Fin n →₀ ℕ) (c : ℝ) :
    MvPolynomial.eval x.get (MvPolynomial.monomial d c) =
      c * ((Finsupp.toMultiset d).map x.get).prod := by
  rw [MvPolynomial.eval_monomial, Finsupp.toMultiset_map, Finsupp.prod_toMultiset,
    Finsupp.prod_mapDomain_index (fun _ => pow_zero _) fun _ _ _ => pow_add _ _ _]

/-- **A polynomial of degree at most two has a normal form.** -/
theorem IsQuadratic.exists_value_eq {f : Vector ℝ n → ℝ} (hf : IsQuadratic f) :
    ∃ F : Quadric n, F.value = f := by
  obtain ⟨P, hDegree, hEq⟩ := hf
  have hSum : f =
      ∑ d ∈ P.support, fun x => P.coeff d * ((Finsupp.toMultiset d).map x.get).prod := by
    funext x
    rw [hEq, Finset.sum_apply]
    conv_lhs => rw [P.as_sum, map_sum]
    exact Finset.sum_congr rfl fun d _ => eval_monomial_eq x d _
  rw [hSum]
  refine Quadric.exists_value_sum _ fun d hd => Quadric.exists_value_monomial ?_ _
  rw [Finsupp.card_toMultiset]
  exact (MvPolynomial.le_totalDegree hd).trans hDegree

/-! ## The derivatives of a normal form -/

namespace Quadric

theorem onEuclidean_value (F : Quadric n) (v : EuclideanSpace ℝ (Fin n)) :
    onEuclidean F.value v =
      inner ℝ v (F.hessian.linear v) / 2 + inner ℝ (euclidean F.linear) v + F.constant := by
  obtain ⟨x, rfl⟩ := euclidean_surjective v
  rw [onEuclidean_euclidean, value_eq, dotInOrder_eq_inner, dotInOrder_eq_inner, euclidean_mulVec]

theorem hasGradientAt (F : Quadric n) (v : EuclideanSpace ℝ (Fin n)) :
    HasGradientAt (onEuclidean F.value) (F.hessian.linear v + euclidean F.linear) v := by
  rw [hasGradientAt_iff_hasFDerivAt, funext F.onEuclidean_value]
  simp only [div_eq_mul_inv]
  have hForm := (hasFDerivAt_id v).inner ℝ F.hessian.linear.toContinuousLinearMap.hasFDerivAt
  have hLinear := (hasFDerivAt_const (euclidean F.linear) v).inner ℝ (hasFDerivAt_id v)
  refine (((hForm.mul_const 2⁻¹).add hLinear).add_const F.constant).congr_fderiv ?_
  ext d
  have hSwap : inner ℝ v (F.hessian.linear d) = inner ℝ (F.hessian.linear v) d :=
    (F.symmetric.isSymmetric_linear v d).symm
  have hComm : inner ℝ d (F.hessian.linear v) = inner ℝ (F.hessian.linear v) d :=
    real_inner_comm _ _
  simp [hSwap, hComm]
  ring

theorem hasFDerivAt_gradient (F : Quadric n) (v : EuclideanSpace ℝ (Fin n)) :
    HasFDerivAt (gradient (onEuclidean F.value)) F.hessian.linear.toContinuousLinearMap v := by
  rw [funext fun w => (F.hasGradientAt w).gradient]
  exact F.hessian.linear.toContinuousLinearMap.hasFDerivAt.add_const _

end Quadric

/-! ## The differences of a problem -/

namespace Problem

variable {p : Problem ℝ n m} {F : Quadric n} {step : ℝ} {μ : Vector ℝ m}

/-- The gradient looks at the objective only. -/
theorem gradient_congr {α : Type} [Scalar α] {p : Problem α n m} {p' : Problem α n l}
    (h : p.objective = p'.objective) (step : α) (x : Vector α n) :
    p.gradient step x = p'.gradient step x := by
  simp only [gradient, h]

/-- A row of the Jacobian matrix is the gradient of one residual. -/
theorem get_jacobian {α : Type} [Scalar α] (p : Problem α n m) (step : α) (x : Vector α n)
    (i : Fin m) : (p.jacobian step x).get i =
      gradient { p with objective := fun y => (p.residuals y).get i } step x := by
  refine Vector.ext fun j hj => ?_
  refine (p.entry_jacobian step x i ⟨j, hj⟩).trans ?_
  rw [gradient, Vector.getElem_ofFn]

/-- The second differences look at the Lagrangian only. -/
theorem lagrangianHessian_congr {α : Type} [Scalar α] {p : Problem α n m} {p' : Problem α n l}
    {μ : Vector α m} {μ' : Vector α l} (h : p.lagrangian μ = p'.lagrangian μ') (step : α)
    (x : Vector α n) : p.lagrangianHessian μ step x = p'.lagrangianHessian μ' step x := by
  simp only [lagrangianHessian, mixedDifference, h]

/-- **The central differences of a normal form are its gradient.** -/
theorem gradient_of_value (h : p.objective = F.value) (hStep : step ≠ 0) (x : Vector ℝ n) :
    p.gradient step x = F.hessian.mulVec x + F.linear := by
  rw [gradient_congr h]
  exact gradient_quadratic F.symmetric hStep x

/-- **The second differences of a normal form are its Hessian matrix.** -/
theorem lagrangianHessian_of_value (h : p.lagrangian μ = F.value) (hStep : step ≠ 0)
    (x : Vector ℝ n) : p.lagrangianHessian μ step x = F.hessian := by
  have hBare : F.value =
      (quadratic F.hessian F.linear F.constant (0 : Mat ℝ 0 n) 0).lagrangian 0 := by
    funext x
    rw [lagrangian, dotInOrder_zero, add_zero, Quadric.value]
  rw [lagrangianHessian_congr (h.trans hBare)]
  exact lagrangianHessian_quadratic F.symmetric hStep 0 x

/-- The Lagrangian of polynomials of degree at most two is another one. -/
theorem isQuadratic_lagrangian (hObjective : IsQuadratic p.objective)
    (hResiduals : ∀ i, IsQuadratic fun x => (p.residuals x).get i) (μ : Vector ℝ m) :
    IsQuadratic (p.lagrangian μ) := by
  obtain ⟨P, hDegree, hEq⟩ := hObjective
  choose R hDegrees hEqs using hResiduals
  refine ⟨P + ∑ i, MvPolynomial.C (μ.get i) * R i, ?_, fun x => ?_⟩
  · refine (MvPolynomial.totalDegree_add _ _).trans (max_le hDegree ?_)
    refine MvPolynomial.totalDegree_finsetSum_le fun i _ => ?_
    refine (MvPolynomial.totalDegree_mul _ _).trans ?_
    rw [MvPolynomial.totalDegree_C, Nat.zero_add]
    exact hDegrees i
  · rw [lagrangian, hEq, map_add, map_sum, dotInOrder_real]
    refine congrArg _ (Finset.sum_congr rfl fun i _ => ?_)
    rw [map_mul, MvPolynomial.eval_C, ← hEqs i x, mul_comm]

end Problem

/-- A map has a matrix as its derivative where every component has a row as its gradient. -/
theorem hasFDerivAt_of_rows {f : Vector ℝ n → Vector ℝ m} {a : Mat ℝ m n}
    {v : EuclideanSpace ℝ (Fin n)}
    (h : ∀ i, HasGradientAt (onEuclidean fun x => (f x).get i) (euclidean (a.get i)) v) :
    HasFDerivAt (onEuclidean fun x => euclidean (f x)) a.linear.toContinuousLinearMap v := by
  rw [← hasFDerivWithinAt_univ, hasFDerivWithinAt_euclidean]
  intro i
  rw [hasFDerivWithinAt_univ]
  refine (hasGradientAt_iff_hasFDerivAt.mp (h i)).congr_fderiv ?_
  ext d
  obtain ⟨x, rfl⟩ := euclidean_surjective d
  have hRow : (a.mulVec x).get i = dotInOrder (a.get i) x := Vector.getElem_map _ i.isLt
  change inner ℝ (euclidean (a.get i)) (euclidean x) = (a.linear (euclidean x)).ofLp i
  rw [← euclidean_mulVec, ← dotInOrder_eq_inner, ← hRow]
  rfl

/-- **The differences of polynomials of degree at most two are their derivatives**, at every point
and with every step: the gradient, the Jacobian matrix, and the Hessian matrix of the Lagrangian as
the derivative of its gradient. -/
theorem differences_of_isQuadratic {p : Problem ℝ n m} (hObjective : IsQuadratic p.objective)
    (hResiduals : ∀ i, IsQuadratic fun x => (p.residuals x).get i) {step : ℝ} (hStep : step ≠ 0)
    (x : Vector ℝ n) (μ : Vector ℝ m) :
    HasGradientAt (onEuclidean p.objective) (euclidean (p.gradient step x)) (euclidean x) ∧
      HasFDerivAt (onEuclidean fun y => euclidean (p.residuals y))
        (p.jacobian step x).linear.toContinuousLinearMap (euclidean x) ∧
      (p.lagrangianHessian μ step x).IsSymmetric ∧
      Differentiable ℝ (onEuclidean (p.lagrangian μ)) ∧
      HasFDerivAt (gradient (onEuclidean (p.lagrangian μ)))
        (p.lagrangianHessian μ step x).linear.toContinuousLinearMap (euclidean x) := by
  -- the gradient of any problem with a quadratic objective
  have hGradient : ∀ {l : Nat} {p : Problem ℝ n l}, IsQuadratic p.objective →
      HasGradientAt (onEuclidean p.objective) (euclidean (p.gradient step x)) (euclidean x) := by
    intro l p hp
    obtain ⟨F, hF⟩ := hp.exists_value_eq
    have hSlope := F.hasGradientAt (euclidean x)
    rwa [hF, ← euclidean_mulVec, ← euclidean_add, ← Problem.gradient_of_value hF.symm hStep]
      at hSlope
  obtain ⟨L, hL⟩ := (Problem.isQuadratic_lagrangian hObjective hResiduals μ).exists_value_eq
  refine ⟨hGradient hObjective, hasFDerivAt_of_rows fun i => ?_, ?_, fun v => ?_, ?_⟩
  · rw [Problem.get_jacobian]
    exact hGradient (p := { p with objective := fun y => (p.residuals y).get i }) (hResiduals i)
  · rw [Problem.lagrangianHessian_of_value hL.symm hStep]
    exact L.symmetric
  · rw [← hL]
    exact (L.hasGradientAt v).differentiableAt
  · rw [Problem.lagrangianHessian_of_value hL.symm hStep, ← hL]
    exact L.hasFDerivAt_gradient (euclidean x)

/-- The product of two coordinates and the square of the third one, where that product is one. -/
def hyperbola : Problem ℝ 3 1 :=
  ⟨fun x => x.get 0 * x.get 1 + x.get 2 * x.get 2, fun x => #v[x.get 0 * x.get 1 - 1]⟩

theorem totalDegree_X_mul_X_le (i j : Fin n) :
    (MvPolynomial.X i * MvPolynomial.X j : MvPolynomial (Fin n) ℝ).totalDegree ≤ 2 := by
  refine (MvPolynomial.totalDegree_mul _ _).trans ?_
  rw [MvPolynomial.totalDegree_X, MvPolynomial.totalDegree_X]

theorem isQuadratic_objective_hyperbola : IsQuadratic hyperbola.objective := by
  refine ⟨.X 0 * .X 1 + .X 2 * .X 2, ?_, fun x => ?_⟩
  · exact (MvPolynomial.totalDegree_add _ _).trans
      (max_le (totalDegree_X_mul_X_le 0 1) (totalDegree_X_mul_X_le 2 2))
  · simp [hyperbola]

theorem isQuadratic_residuals_hyperbola (i : Fin 1) :
    IsQuadratic fun x => (hyperbola.residuals x).get i := by
  obtain rfl := Subsingleton.elim 0 i
  refine ⟨.X 0 * .X 1 - .C 1, ?_, fun x => ?_⟩
  · exact (MvPolynomial.totalDegree_sub_C_le _ _).trans (totalDegree_X_mul_X_le 0 1)
  · simp [hyperbola, Vector.get]

/-- The slopes at `(1, 2, 3)`, from probes that step backwards first. -/
theorem differences_of_isQuadratic_hyperbola :
    IsQuadratic hyperbola.objective ∧
      (∀ i, IsQuadratic fun x => (hyperbola.residuals x).get i) ∧ (-1 : ℝ) ≠ 0 ∧
      HasGradientAt (onEuclidean hyperbola.objective) (euclidean #v[2, 1, 6])
        (euclidean #v[1, 2, 3]) ∧
      (hyperbola.lagrangianHessian #v[4] (-1) #v[1, 2, 3]).IsSymmetric := by
  have hStep : (-1 : ℝ) ≠ 0 := by norm_num
  have hGradient : hyperbola.gradient (-1) #v[1, 2, 3] = #v[2, 1, 6] := by
    refine Vector.ext fun i hi => ?_
    interval_cases i <;>
      norm_num [Problem.gradient, Problem.relativeStep, hyperbola, Vector.get]
  obtain ⟨hSlope, -, hSymmetric, -⟩ := differences_of_isQuadratic isQuadratic_objective_hyperbola
    isQuadratic_residuals_hyperbola hStep #v[1, 2, 3] #v[4]
  rw [hGradient] at hSlope
  exact ⟨isQuadratic_objective_hyperbola, isQuadratic_residuals_hyperbola, hStep, hSlope,
    hSymmetric⟩

end PlaneSketch
