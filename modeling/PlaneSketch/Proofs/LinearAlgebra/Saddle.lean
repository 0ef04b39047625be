import Mathlib.Analysis.InnerProductSpace.Adjoint
import PlaneSketch.Proofs.LinearAlgebra.LeastSquares

/-!
# Saddle points

The optimality conditions of a convex quadratic under linear constraints: a symmetric system, which
has no inverse when some constraints follow from others.

* `Mat.linear_transpose`: the transpose is the adjoint.
* `Mat.exists_saddle`: **the system has a solution whenever the constraints have one**, if the
  quadratic is positive definite.
* `Kernel.IsExact`: the kernels that make no error; `Kernel.SolvesLeastSquares` asks this of the
  linear systems only, `Kernel.TellsPositiveDefinite` of the test only.
-/

namespace PlaneSketch

variable {m n : Nat}

/-! ## Products -/

theorem dotInOrder_comm (v w : Vector ℝ n) : dotInOrder v w = dotInOrder w v := by
  rw [dotInOrder_eq_inner, dotInOrder_eq_inner, real_inner_comm]

theorem add_dotInOrder (u v w : Vector ℝ n) :
    dotInOrder (u + v) w = dotInOrder u w + dotInOrder v w := by
  simp only [dotInOrder_eq_inner, euclidean_add, inner_add_left]

theorem zero_dotInOrder (v : Vector ℝ n) : dotInOrder 0 v = 0 := by
  rw [dotInOrder_eq_inner, euclidean_zero, inner_zero_left]

theorem dotInOrder_zero (v : Vector ℝ n) : dotInOrder v 0 = 0 := by
  rw [dotInOrder_comm, zero_dotInOrder]

theorem dotInOrder_self_eq_zero {v : Vector ℝ n} : dotInOrder v v = 0 ↔ v = 0 := by
  rw [dotInOrder_eq_inner, inner_self_eq_zero, ← euclidean_zero, euclidean_injective.eq_iff]

theorem sub_eq_zero_iff {v w : Vector ℝ n} : v - w = 0 ↔ v = w := by
  rw [← euclidean_injective.eq_iff, euclidean_sub, euclidean_zero, sub_eq_zero,
    euclidean_injective.eq_iff]

theorem mulVec_sub (a : Mat ℝ m n) (v w : Vector ℝ n) :
    a.mulVec (v - w) = a.mulVec v - a.mulVec w := by
  refine euclidean_injective ?_
  rw [euclidean_sub, euclidean_mulVec, euclidean_mulVec, euclidean_mulVec, euclidean_sub, map_sub]

theorem mulVec_add (a : Mat ℝ m n) (v w : Vector ℝ n) :
    a.mulVec (v + w) = a.mulVec v + a.mulVec w := by
  refine euclidean_injective ?_
  rw [euclidean_add, euclidean_mulVec, euclidean_mulVec, euclidean_mulVec, euclidean_add, map_add]

theorem euclidean_neg (v : Vector ℝ n) : euclidean (-v) = -euclidean v := by
  ext i
  exact Vector.getElem_neg v i i.isLt

theorem mulVec_neg (a : Mat ℝ m n) (v : Vector ℝ n) : a.mulVec (-v) = -a.mulVec v := by
  refine euclidean_injective ?_
  rw [euclidean_mulVec, euclidean_neg, euclidean_neg, euclidean_mulVec, map_neg]

/-! ## Transposes -/

namespace Mat

theorem entry_ofFn (f : Fin m → Fin n → ℝ) (i : Fin m) (j : Fin n) :
    (ofFn f).entry i j = f i j := by
  simp [ofFn, entry]

theorem ext_entry {a a' : Mat ℝ m n} (h : ∀ i j, a.entry i j = a'.entry i j) : a = a' :=
  Vector.ext fun i hi => Vector.ext fun j hj => h ⟨i, hi⟩ ⟨j, hj⟩

/-- **The transpose is the adjoint.** -/
theorem linear_transpose (a : Mat ℝ m n) : a.transpose.linear = a.linear.adjoint := by
  rw [linear, linear, ← Matrix.toEuclideanLin_conjTranspose_eq_adjoint]
  congr 1
  ext j i
  exact entry_ofFn (fun j i => a.entry i j) j i

theorem dotInOrder_transpose_mulVec (a : Mat ℝ m n) (w : Vector ℝ m) (v : Vector ℝ n) :
    dotInOrder (a.transpose.mulVec w) v = dotInOrder w (a.mulVec v) := by
  rw [dotInOrder_eq_inner, dotInOrder_eq_inner, euclidean_mulVec, euclidean_mulVec,
    linear_transpose, LinearMap.adjoint_inner_left]

def IsSymmetric (a : Mat ℝ n n) : Prop := a.transpose = a

theorem IsSymmetric.entry_comm {a : Mat ℝ n n} (h : a.IsSymmetric) (i j : Fin n) :
    a.entry j i = a.entry i j := by
  conv_lhs => rw [← h]
  exact entry_ofFn (fun j i => a.entry i j) j i

theorem IsSymmetric.isSymmetric_linear {a : Mat ℝ n n} (h : a.IsSymmetric) :
    a.linear.IsSymmetric := by
  intro v w
  rw [← LinearMap.adjoint_inner_right, ← linear_transpose, h]

end Mat

/-! ## The system -/

theorem append_sub_append (v v' : Vector ℝ m) (w w' : Vector ℝ n) :
    (v ++ w) - (v' ++ w') = (v - v') ++ (w - w') := by
  refine Vector.ext fun i hi => ?_
  rw [Vector.getElem_sub, Vector.getElem_append, Vector.getElem_append, Vector.getElem_append]
  split
  · rw [Vector.getElem_sub]
  · rw [Vector.getElem_sub]

/-- **The optimality conditions can be met whenever the constraints can**, if the quadratic is
positive definite, also when some rows of the constraints follow from others. -/
theorem Mat.exists_saddle {h : Mat ℝ n n} (hPositive : h.IsPositiveDefinite) (a : Mat ℝ m n)
    (g y : Vector ℝ n) :
    ∃ (p : Vector ℝ n) (μ : Vector ℝ m), h.mulVec p + a.transpose.mulVec μ = g ∧
      a.mulVec p = a.mulVec y := by
  obtain ⟨x, hError, -⟩ :=
    exists_orthogonal (Mat.blocks h a.transpose a (0 : Mat ℝ m m)) (g ++ a.mulVec y)
  obtain ⟨p, μ, rfl⟩ := exists_eq_append x
  -- the errors of the two parts
  obtain ⟨d, hd⟩ : ∃ d, d = h.mulVec p + a.transpose.mulVec μ - g := ⟨_, rfl⟩
  obtain ⟨e, he⟩ : ∃ e, e = a.mulVec p - a.mulVec y := ⟨_, rfl⟩
  have hOrthogonal : ∀ (v : Vector ℝ n) (w : Vector ℝ m),
      dotInOrder (h.mulVec v) d + dotInOrder w (a.mulVec d) + dotInOrder (a.mulVec v) e = 0 := by
    intro v w
    have hBoth := hError (v ++ w)
    rw [mulVec_saddle, mulVec_saddle, append_sub_append, ← hd, ← he, dotInOrder_append,
      add_dotInOrder, dotInOrder_transpose_mulVec] at hBoth
    exact hBoth
  have hRow : a.mulVec d = 0 := by
    have hSelf := hOrthogonal 0 (a.mulVec d)
    rw [mulVec_zero, mulVec_zero, zero_dotInOrder, zero_dotInOrder, zero_add, add_zero] at hSelf
    exact dotInOrder_self_eq_zero.mp hSelf
  have hd0 : d = 0 := by
    by_contra hNe
    have hSelf := hOrthogonal d 0
    rw [hRow, zero_dotInOrder, zero_dotInOrder, add_zero, add_zero, dotInOrder_comm] at hSelf
    exact absurd hSelf (ne_of_gt (hPositive d hNe))
  have he0 : e = 0 := by
    have hSelf := hOrthogonal (p - y) 0
    rw [hRow, hd0, dotInOrder_zero, zero_dotInOrder, zero_add, zero_add, mulVec_sub, ← he] at hSelf
    exact dotInOrder_self_eq_zero.mp hSelf
  refine ⟨p, μ, ?_, ?_⟩
  · exact sub_eq_zero_iff.mp (hd.symm.trans hd0)
  · exact sub_eq_zero_iff.mp (he.symm.trans he0)

/-! ## Kernels -/

/-- The solutions of a kernel are the shortest of those that are least. -/
def Kernel.SolvesLeastSquares (k : Kernel ℝ) : Prop :=
  ∀ ⦃m n : Nat⦄ (a : Mat ℝ m n) (b : Vector ℝ m), IsLeastSquares a b (k.leastSquares a b)

/-- A kernel tells the symmetric matrices that are positive definite from the others. -/
def Kernel.TellsPositiveDefinite (k : Kernel ℝ) : Prop :=
  ∀ ⦃n : Nat⦄ {a : Mat ℝ n n}, a.IsSymmetric →
    (k.isPositiveDefinite a = true ↔ a.IsPositiveDefinite)

/-- A kernel that makes no error: its solutions are the shortest of those that are least, and it
tells the symmetric matrices that are positive definite from the others. -/
structure Kernel.IsExact (k : Kernel ℝ) : Prop where
  leastSquares {m n : Nat} (a : Mat ℝ m n) (b : Vector ℝ m) :
    IsLeastSquares a b (k.leastSquares a b)
  isPositiveDefinite {n : Nat} {a : Mat ℝ n n} (h : a.IsSymmetric) :
    k.isPositiveDefinite a = true ↔ a.IsPositiveDefinite

theorem Kernel.IsExact.solvesLeastSquares {k : Kernel ℝ} (h : k.IsExact) :
    k.SolvesLeastSquares := fun _ _ => h.leastSquares

theorem Kernel.IsExact.tellsPositiveDefinite {k : Kernel ℝ} (h : k.IsExact) :
    k.TellsPositiveDefinite := fun _ _ => h.isPositiveDefinite

theorem Kernel.isExact_exact : exact.IsExact :=
  ⟨isLeastSquares_exact, fun _ => by simp [exact]⟩

end PlaneSketch
