import Mathlib.Analysis.InnerProductSpace.PiL2
import Mathlib.Analysis.InnerProductSpace.Projection.Submodule
import PlaneSketch.LinearAlgebra.Kernel
import PlaneSketch.Proofs.Scalar.Real

/-!
# Least squares in exact arithmetic

What a kernel is to compute, and that it can be computed over the real numbers.

* `euclidean`: vectors as points of Euclidean space, where sums of products are inner products.
* `Mat.mulVec_blocks`: a matrix of blocks acts block by block.
* `IsLeastSquares`: the shortest of the vectors that minimise `‖a·x - b‖`.
* `isLeastSquares_of_orthogonal`, `IsLeastSquares.orthogonal`: it is the one at which the error is
  orthogonal to the range of `a` and that is itself orthogonal to the null space;
  `exists_orthogonal` finds it by two orthogonal projections.
* `Kernel.exact`: the kernel that makes no error.
* `Kernel.exact_leastSquares_eq`: **a system with just one solution is solved by it**.
-/

namespace PlaneSketch

variable {k l m n : Nat}

/-! ## Vectors in Euclidean space -/

def euclidean (v : Vector ℝ n) : EuclideanSpace ℝ (Fin n) := WithLp.toLp 2 v.get

theorem euclidean_surjective : Function.Surjective (euclidean (n := n)) := by
  intro w
  refine ⟨Vector.ofFn w, ?_⟩
  ext i
  exact Vector.getElem_ofFn i.isLt

theorem euclidean_injective : Function.Injective (euclidean (n := n)) := by
  intro v w h
  refine Vector.ext fun i hi => ?_
  exact congrFun (congrArg WithLp.ofLp h) ⟨i, hi⟩

theorem euclidean_add (v w : Vector ℝ n) : euclidean (v + w) = euclidean v + euclidean w := by
  ext i
  exact Vector.getElem_add v w i i.isLt

theorem euclidean_sub (v w : Vector ℝ n) : euclidean (v - w) = euclidean v - euclidean w := by
  ext i
  exact Vector.getElem_sub v w i i.isLt

theorem euclidean_zero : euclidean (0 : Vector ℝ n) = 0 := by
  ext i
  exact Vector.getElem_zero i i.isLt

theorem total_real (v : Vector ℝ n) : total v = ∑ i : Fin n, v.get i := by
  have hList : v.toList = List.ofFn v.get := by
    refine List.ext_getElem (by simp) fun i hi hi' => ?_
    simp [Vector.get]
  rw [total, ← Vector.foldl_toList, hList, ← List.sum_ofFn, List.sum_eq_foldl]

theorem dotInOrder_real (v w : Vector ℝ n) : dotInOrder v w = ∑ i, v.get i * w.get i := by
  rw [dotInOrder, total_real]
  exact Finset.sum_congr rfl fun i _ => Vector.getElem_zipWith i.isLt

theorem dotInOrder_eq_inner (v w : Vector ℝ n) :
    dotInOrder v w = inner ℝ (euclidean v) (euclidean w) := by
  rw [dotInOrder_real, PiLp.inner_apply]
  exact Finset.sum_congr rfl fun i _ => mul_comm _ _

/-- Over the real numbers eight partial sums are as good as one. -/
theorem Lanes.totalOf_real (s : Lanes ℝ) (l : List ℝ) :
    s.totalOf l = s.a + s.b + s.c + s.d + s.e + s.f + s.g + s.h + l.sum := by
  fun_induction Lanes.totalOf s l with
  | case1 s a b c d e f g h rest ih =>
    rw [ih]
    simp only [List.sum_cons]
    ring
  | case2 s rest _ =>
    rw [← add_zero (_ + _), List.foldl_assoc, ← List.sum_eq_foldl]
    ring

theorem dot_real (v w : Vector ℝ n) : dot v w = dotInOrder v w := by
  rw [dot, Lanes.totalOf_real, dotInOrder, total, ← Vector.foldl_toList, List.sum_eq_foldl]
  simp

theorem norm1_real (v : Vector ℝ n) : norm1 v = ∑ i, |v.get i| := by
  rw [norm1, total_real]
  exact Finset.sum_congr rfl fun i _ => Vector.getElem_map _ i.isLt

theorem norm1_nonneg (v : Vector ℝ n) : 0 ≤ norm1 v := by
  rw [norm1_real]
  exact Finset.sum_nonneg fun i _ => abs_nonneg _

theorem norm1_zero : norm1 (0 : Vector ℝ n) = 0 := by
  rw [norm1_real]
  exact Finset.sum_eq_zero fun i _ => abs_eq_zero.mpr (Vector.getElem_zero i i.isLt)

/-- The linear map of a matrix. -/
noncomputable def Mat.linear (a : Mat ℝ m n) :
    EuclideanSpace ℝ (Fin n) →ₗ[ℝ] EuclideanSpace ℝ (Fin m) :=
  Matrix.toEuclideanLin (Matrix.of fun i => (a.get i).get)

theorem get_mulVec (a : Mat ℝ m n) (v : Vector ℝ n) (i : Fin m) :
    (a.mulVec v).get i = ∑ j, a.entry i j * v.get j :=
  (Vector.getElem_map _ i.isLt).trans (dotInOrder_real _ _)

theorem euclidean_mulVec (a : Mat ℝ m n) (v : Vector ℝ n) :
    euclidean (a.mulVec v) = a.linear (euclidean v) := by
  ext i
  exact get_mulVec a v i

/-! ## Blocks -/

theorem get_append_castAdd {α : Type} (v : Vector α m) (w : Vector α n) (i : Fin m) :
    (v ++ w).get (i.castAdd n) = v.get i := Vector.getElem_append_left i.isLt

theorem get_append_natAdd {α : Type} (v : Vector α m) (w : Vector α n) (i : Fin n) :
    (v ++ w).get (i.natAdd m) = w.get i := by
  refine (Vector.getElem_append_right (i.natAdd m).isLt (Nat.le_add_right m i)).trans ?_
  simp only [Fin.val_natAdd, Nat.add_sub_cancel_left]
  rfl

theorem exists_eq_append (y : Vector ℝ (m + n)) :
    ∃ (v : Vector ℝ m) (w : Vector ℝ n), y = v ++ w := by
  obtain ⟨v, hv⟩ : ∃ v : Vector ℝ m, ∀ i, v.get i = y.get (i.castAdd n) :=
    ⟨Vector.ofFn fun i => y.get (i.castAdd n), fun i => Vector.getElem_ofFn i.isLt⟩
  obtain ⟨w, hw⟩ : ∃ w : Vector ℝ n, ∀ i, w.get i = y.get (i.natAdd m) :=
    ⟨Vector.ofFn fun i => y.get (i.natAdd m), fun i => Vector.getElem_ofFn i.isLt⟩
  refine ⟨v, w, euclidean_injective ?_⟩
  ext i
  refine Fin.addCases (fun i => ?_) (fun i => ?_) i
  · exact (hv i).symm.trans (get_append_castAdd v w i).symm
  · exact (hw i).symm.trans (get_append_natAdd v w i).symm

theorem dotInOrder_append (v v' : Vector ℝ m) (w w' : Vector ℝ n) :
    dotInOrder (v ++ w) (v' ++ w') = dotInOrder v v' + dotInOrder w w' := by
  simp only [dotInOrder_real, Fin.sum_univ_add, get_append_castAdd, get_append_natAdd]

/-- A matrix of blocks acts block by block. -/
theorem Mat.mulVec_blocks (a : Mat ℝ m n) (b : Mat ℝ m l) (c : Mat ℝ k n) (d : Mat ℝ k l)
    (v : Vector ℝ n) (w : Vector ℝ l) :
    (Mat.blocks a b c d).mulVec (v ++ w) =
      (a.mulVec v + b.mulVec w) ++ (c.mulVec v + d.mulVec w) := by
  simp only [Mat.blocks, Mat.mulVec, Vector.map_append]
  refine congrArg₂ (· ++ ·) (Vector.ext fun i hi => ?_) (Vector.ext fun i hi => ?_)
  · simp only [Vector.getElem_map, Vector.getElem_zipWith, Vector.getElem_add, dotInOrder_append]
  · simp only [Vector.getElem_map, Vector.getElem_zipWith, Vector.getElem_add, dotInOrder_append]

theorem Mat.zero_mulVec (v : Vector ℝ n) : (0 : Mat ℝ m n).mulVec v = 0 := by
  refine Vector.ext fun i hi => ?_
  rw [Mat.mulVec, Vector.getElem_map, Vector.getElem_zero, dotInOrder_eq_inner, euclidean_zero,
    inner_zero_left, Vector.getElem_zero]

/-- The matrix of a quadratic model acts on a step and its multipliers. -/
theorem Mat.mulVec_saddle (h : Mat ℝ n n) (a : Mat ℝ m n) (v : Vector ℝ n) (w : Vector ℝ m) :
    (Mat.blocks h a.transpose a (0 : Mat ℝ m m)).mulVec (v ++ w) =
      (h.mulVec v + a.transpose.mulVec w) ++ a.mulVec v := by
  rw [Mat.mulVec_blocks, Mat.zero_mulVec, Vector.add_zero add_zero]

/-! ## Least squares -/

/-- The square of the length of a vector. -/
noncomputable def normSq (v : Vector ℝ n) : ℝ := dotInOrder v v

theorem normSq_eq (v : Vector ℝ n) : normSq v = ‖euclidean v‖ ^ 2 := by
  rw [normSq, dotInOrder_eq_inner, real_inner_self_eq_norm_sq]

theorem normSq_le_normSq {v w : Vector ℝ n} :
    normSq v ≤ normSq w ↔ ‖euclidean v‖ ≤ ‖euclidean w‖ := by
  rw [normSq_eq, normSq_eq, sq_le_sq₀ (norm_nonneg _) (norm_nonneg _)]

theorem eq_zero_of_normSq_le {v : Vector ℝ n} (h : normSq v ≤ normSq (0 : Vector ℝ n)) :
    v = 0 := by
  rw [normSq_le_normSq, euclidean_zero, norm_zero, norm_le_zero_iff, ← euclidean_zero] at h
  exact euclidean_injective h

/-- `x` minimises `‖a·x - b‖` and is the shortest vector that does. -/
structure IsLeastSquares (a : Mat ℝ m n) (b : Vector ℝ m) (x : Vector ℝ n) : Prop where
  least (y : Vector ℝ n) : normSq (a.mulVec x - b) ≤ normSq (a.mulVec y - b)
  shortest (y : Vector ℝ n) (h : normSq (a.mulVec y - b) ≤ normSq (a.mulVec x - b)) :
    normSq x ≤ normSq y

variable {a : Mat ℝ m n} {b : Vector ℝ m} {x y : Vector ℝ n}

/-- The error of any other vector is longer by what it adds in the range of the matrix. -/
theorem normSq_mulVec_sub (hError : ∀ y, dotInOrder (a.mulVec y) (a.mulVec x - b) = 0)
    (y : Vector ℝ n) :
    normSq (a.mulVec y - b) = ‖a.linear (euclidean y - euclidean x)‖ ^ 2 +
      normSq (a.mulVec x - b) := by
  obtain ⟨d, hd⟩ := euclidean_surjective (euclidean y - euclidean x)
  have hOrthogonal := hError d
  rw [dotInOrder_eq_inner, euclidean_mulVec] at hOrthogonal
  have hSum : euclidean (a.mulVec y - b) =
      a.linear (euclidean d) + euclidean (a.mulVec x - b) := by
    rw [hd, euclidean_sub, euclidean_sub, euclidean_mulVec, euclidean_mulVec, map_sub]
    abel
  rw [normSq_eq, normSq_eq, hSum, ← hd, norm_add_sq_real, hOrthogonal]
  ring

/-- A vector with the image of `x` is longer by what it adds in the null space. -/
theorem normSq_of_linear_sub (hNull : ∀ z, a.mulVec z = 0 → dotInOrder z x = 0)
    (hImage : a.linear (euclidean y - euclidean x) = 0) :
    normSq y = ‖euclidean y - euclidean x‖ ^ 2 + normSq x := by
  obtain ⟨z, hz⟩ := euclidean_surjective (euclidean y - euclidean x)
  have hOrthogonal := hNull z (euclidean_injective (by
    rw [euclidean_mulVec, hz, hImage, euclidean_zero]))
  rw [dotInOrder_eq_inner] at hOrthogonal
  have hSum : euclidean y = euclidean z + euclidean x := by rw [hz, sub_add_cancel]
  rw [← hz, normSq_eq, normSq_eq, hSum, norm_add_sq_real, hOrthogonal]
  ring

/-- A vector that is no worse has the same image. -/
theorem linear_sub_eq_zero (hError : ∀ y, dotInOrder (a.mulVec y) (a.mulVec x - b) = 0)
    (hLeast : normSq (a.mulVec y - b) ≤ normSq (a.mulVec x - b)) :
    a.linear (euclidean y - euclidean x) = 0 := by
  rw [normSq_mulVec_sub hError y, add_le_iff_nonpos_left] at hLeast
  exact norm_eq_zero.mp (pow_eq_zero_iff two_ne_zero |>.mp (le_antisymm hLeast (sq_nonneg _)))

theorem isLeastSquares_of_orthogonal
    (hError : ∀ y, dotInOrder (a.mulVec y) (a.mulVec x - b) = 0)
    (hNull : ∀ z, a.mulVec z = 0 → dotInOrder z x = 0) : IsLeastSquares a b x := by
  refine ⟨fun y => ?_, fun y hy => ?_⟩
  · rw [normSq_mulVec_sub hError y]
    exact le_add_of_nonneg_left (sq_nonneg _)
  · rw [normSq_of_linear_sub hNull (linear_sub_eq_zero hError hy)]
    exact le_add_of_nonneg_left (sq_nonneg _)

/-- There is no other least solution that is as short. -/
theorem IsLeastSquares.eq_of_orthogonal (h : IsLeastSquares a b y)
    (hError : ∀ y, dotInOrder (a.mulVec y) (a.mulVec x - b) = 0)
    (hNull : ∀ z, a.mulVec z = 0 → dotInOrder z x = 0) : y = x := by
  have hLength := h.shortest x ((isLeastSquares_of_orthogonal hError hNull).least y)
  rw [normSq_of_linear_sub hNull (linear_sub_eq_zero hError (h.least x)),
    add_le_iff_nonpos_left] at hLength
  have hZero := pow_eq_zero_iff two_ne_zero |>.mp (le_antisymm hLength (sq_nonneg _))
  exact euclidean_injective (sub_eq_zero.mp (norm_eq_zero.mp hZero))

/-- **The image of a vector is the point of the range next to `b` exactly if the error is
orthogonal to the range.** -/
theorem linear_eq_starProjection_iff :
    a.linear (euclidean x) = a.linear.range.starProjection (euclidean b) ↔
      ∀ y, dotInOrder (a.mulVec y) (a.mulVec x - b) = 0 := by
  simp only [dotInOrder_eq_inner, euclidean_sub, euclidean_mulVec]
  constructor
  · intro hValue y
    rw [hValue, ← neg_sub, inner_neg_right, neg_eq_zero]
    exact Submodule.inner_right_of_mem_orthogonal (LinearMap.mem_range_self _ _)
      (Submodule.sub_starProjection_mem_orthogonal _)
  · intro hError
    refine (Submodule.eq_starProjection_of_mem_of_inner_eq_zero
      (LinearMap.mem_range_self _ _) ?_).symm
    rintro _ ⟨w, rfl⟩
    obtain ⟨y, rfl⟩ := euclidean_surjective w
    rw [← neg_sub, inner_neg_left, real_inner_comm, hError y, neg_zero]

theorem exists_orthogonal (a : Mat ℝ m n) (b : Vector ℝ m) :
    ∃ x, (∀ y, dotInOrder (a.mulVec y) (a.mulVec x - b) = 0) ∧
      ∀ z, a.mulVec z = 0 → dotInOrder z x = 0 := by
  -- the point of the range that is next to `b`, and its shortest preimage
  obtain ⟨x₀, hx₀⟩ := a.linear.range.starProjection_apply_mem (euclidean b)
  obtain ⟨x, hx⟩ := euclidean_surjective (a.linear.kerᗮ.starProjection x₀)
  have hShort : euclidean x ∈ a.linear.kerᗮ := hx ▸ Submodule.starProjection_apply_mem _ x₀
  have hValue : a.linear (euclidean x) = a.linear.range.starProjection (euclidean b) := by
    have hDiff := a.linear.kerᗮ.sub_starProjection_mem_orthogonal x₀
    rw [Submodule.orthogonal_orthogonal, LinearMap.mem_ker, map_sub, sub_eq_zero] at hDiff
    rw [hx, ← hDiff, hx₀]
  refine ⟨x, linear_eq_starProjection_iff.mp hValue, fun z hz => ?_⟩
  rw [dotInOrder_eq_inner]
  refine Submodule.inner_right_of_mem_orthogonal ?_ hShort
  rw [LinearMap.mem_ker, ← euclidean_mulVec, hz, euclidean_zero]

/-- **The error of the least solution is orthogonal to the range, and the solution itself to the
null space.** -/
theorem IsLeastSquares.orthogonal (h : IsLeastSquares a b x) :
    (∀ y, dotInOrder (a.mulVec y) (a.mulVec x - b) = 0) ∧
      ∀ z, a.mulVec z = 0 → dotInOrder z x = 0 := by
  obtain ⟨x', hError, hNull⟩ := exists_orthogonal a b
  obtain rfl := h.eq_of_orthogonal hError hNull
  exact ⟨hError, hNull⟩

theorem exists_isLeastSquares (a : Mat ℝ m n) (b : Vector ℝ m) : ∃ x, IsLeastSquares a b x := by
  obtain ⟨x, hError, hNull⟩ := exists_orthogonal a b
  exact ⟨x, isLeastSquares_of_orthogonal hError hNull⟩

theorem mulVec_zero (a : Mat ℝ m n) : a.mulVec 0 = 0 := by
  refine euclidean_injective ?_
  rw [euclidean_mulVec, euclidean_zero, euclidean_zero, map_zero]

/-- A system that can be solved is solved. -/
theorem IsLeastSquares.mulVec_eq (h : IsLeastSquares a b x) (hy : a.mulVec y = b) :
    a.mulVec x = b := by
  have hLeast := h.least y
  rw [hy, normSq_le_normSq, euclidean_sub, euclidean_sub, sub_self, norm_zero,
    norm_le_zero_iff, sub_eq_zero] at hLeast
  exact euclidean_injective hLeast

theorem IsLeastSquares.eq_zero (h : IsLeastSquares a 0 x) : x = 0 :=
  eq_zero_of_normSq_le (h.shortest 0 (by
    rw [h.mulVec_eq (mulVec_zero a), mulVec_zero]))

/-! ## The exact kernel -/

/-- Whether a symmetric matrix is positive definite. -/
def Mat.IsPositiveDefinite (a : Mat ℝ n n) : Prop := ∀ v, v ≠ 0 → 0 < dotInOrder v (a.mulVec v)

namespace Kernel

open Classical in
/-- The kernel that makes no error. -/
noncomputable def exact : Kernel ℝ where
  leastSquares a b := (exists_isLeastSquares a b).choose
  isPositiveDefinite a := decide a.IsPositiveDefinite

theorem isLeastSquares_exact (a : Mat ℝ m n) (b : Vector ℝ m) :
    IsLeastSquares a b (exact.leastSquares a b) :=
  (exists_isLeastSquares a b).choose_spec

theorem exact_leastSquares_zero (a : Mat ℝ m n) : exact.leastSquares a 0 = 0 :=
  (isLeastSquares_exact a 0).eq_zero

/-- **A system with just one solution is solved by it.** -/
theorem exact_leastSquares_eq (hSolution : a.mulVec x = b)
    (hUnique : ∀ y, a.mulVec y = b → y = x) : exact.leastSquares a b = x :=
  hUnique _ ((isLeastSquares_exact a b).mulVec_eq hSolution)

end Kernel

end PlaneSketch
