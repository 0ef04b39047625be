import Mathlib.Tactic.Linarith
import Mathlib.Tactic.LinearCombination
import Mathlib.Tactic.Ring
import PlaneSketch.Plane.Vec2
import PlaneSketch.Proofs.Scalar.Real

/-!
# Vectors with exact coordinates

The operations on vectors, coordinate by coordinate over the real numbers, and what length, dot and
cross product have to do with each other.

* `normSq_eq_zero_iff`, `norm_eq_zero_iff`: only the zero vector has no length.
* `dot_sq_add_cross_sq`: dot and cross product are the two components of one product.
* `normSq_sub`, `abs_norm_sub_norm_le`: the cosine rule and the triangle inequality.
* `dot_sub_midpoint_eq_zero_iff`: the perpendicular bisector of a chord.
-/

namespace PlaneSketch

open Scalar (tolerance machineEpsilon)

namespace Scalar

theorem tolerance_real : (tolerance : ℝ) = 1 / 100000 := by
  show (1e-5 : ℝ) = 1 / 100000
  norm_num

/-- What is not near zero is not zero. -/
theorem ne_zero_of_tolerance_le {x : ℝ} (h : tolerance ≤ |x|) : x ≠ 0 := by
  rintro rfl
  rw [abs_zero, tolerance_real] at h
  norm_num at h

theorem machineEpsilon_real : (machineEpsilon : ℝ) = 1 / 4503599627370496 := by
  show (1 / 4503599627370496.0 : ℝ) = 1 / 4503599627370496
  norm_num

end Scalar

namespace Vec2

variable {v w : Vec2 ℝ}

theorem ext (hx : v.x = w.x) (hy : v.y = w.y) : v = w := by
  cases v
  cases w
  rw [mk.injEq]
  exact ⟨hx, hy⟩

/-! ## Coordinates -/

@[simp] theorem add_x (v w : Vec2 ℝ) : (v + w).x = v.x + w.x := rfl

@[simp] theorem add_y (v w : Vec2 ℝ) : (v + w).y = v.y + w.y := rfl

@[simp] theorem sub_x (v w : Vec2 ℝ) : (v - w).x = v.x - w.x := rfl

@[simp] theorem sub_y (v w : Vec2 ℝ) : (v - w).y = v.y - w.y := rfl

@[simp] theorem smul_x (k : ℝ) (v : Vec2 ℝ) : (k • v).x = k * v.x := rfl

@[simp] theorem smul_y (k : ℝ) (v : Vec2 ℝ) : (k • v).y = k * v.y := rfl

@[simp] theorem div_x (v : Vec2 ℝ) (k : ℝ) : (v / k).x = v.x / k := rfl

@[simp] theorem div_y (v : Vec2 ℝ) (k : ℝ) : (v / k).y = v.y / k := rfl

@[simp] theorem zero_x : (0 : Vec2 ℝ).x = 0 := rfl

@[simp] theorem zero_y : (0 : Vec2 ℝ).y = 0 := rfl

@[simp] theorem quarterCcw_x (v : Vec2 ℝ) : v.quarterCcw.x = v.y := rfl

@[simp] theorem quarterCcw_y (v : Vec2 ℝ) : v.quarterCcw.y = -v.x := rfl

theorem dot_eq (v w : Vec2 ℝ) : v.dot w = v.x * w.x + v.y * w.y := rfl

theorem cross_eq (v w : Vec2 ℝ) : v.cross w = v.x * w.y - v.y * w.x := rfl

theorem normSq_eq (v : Vec2 ℝ) : v.normSq = v.x * v.x + v.y * v.y := rfl

theorem norm_eq (v : Vec2 ℝ) : v.norm = √v.normSq := rfl

/-! ## Lengths -/

theorem normSq_nonneg (v : Vec2 ℝ) : 0 ≤ v.normSq := by
  rw [normSq_eq]
  exact add_nonneg (mul_self_nonneg _) (mul_self_nonneg _)

theorem norm_nonneg (v : Vec2 ℝ) : 0 ≤ v.norm := Real.sqrt_nonneg _

theorem norm_mul_self (v : Vec2 ℝ) : v.norm * v.norm = v.normSq :=
  Real.mul_self_sqrt v.normSq_nonneg

theorem norm_of_normSq_eq {k : ℝ} (hk : 0 ≤ k) (h : v.normSq = k * k) : v.norm = k := by
  rw [norm_eq, h, Real.sqrt_mul_self hk]

theorem normSq_eq_zero_iff : v.normSq = 0 ↔ v = 0 := by
  constructor
  · intro h
    rw [normSq_eq, mul_self_add_mul_self_eq_zero] at h
    exact ext h.1 h.2
  · rintro rfl
    simp [normSq_eq]

theorem norm_eq_zero_iff : v.norm = 0 ↔ v = 0 := by
  rw [norm_eq, Real.sqrt_eq_zero v.normSq_nonneg, normSq_eq_zero_iff]

theorem norm_pos_iff : 0 < v.norm ↔ v ≠ 0 := by
  rw [← not_iff_not, not_lt, not_not, ← norm_eq_zero_iff]
  exact ⟨fun h => le_antisymm h v.norm_nonneg, le_of_eq⟩

theorem ne_zero_of_norm_eq (h : v.norm = w.norm) (hw : w ≠ 0) : v ≠ 0 := by
  rw [← norm_pos_iff, h]
  exact norm_pos_iff.mpr hw

@[simp] theorem norm_quarterCcw (v : Vec2 ℝ) : v.quarterCcw.norm = v.norm := by
  rw [norm_eq, norm_eq, normSq_eq, normSq_eq, quarterCcw_x, quarterCcw_y, neg_mul_neg, add_comm]

theorem normSq_sub_comm (v w : Vec2 ℝ) : (v - w).normSq = (w - v).normSq := by
  simp only [normSq_eq, sub_x, sub_y]
  ring

theorem norm_sub_comm (v w : Vec2 ℝ) : (v - w).norm = (w - v).norm := by
  rw [norm_eq, norm_eq, normSq_sub_comm]

theorem ne_zero_of_machineEpsilon_lt (h : machineEpsilon < v.norm) : v ≠ 0 := by
  refine norm_pos_iff.mp (lt_trans ?_ h)
  rw [Scalar.machineEpsilon_real]
  norm_num

/-- **Dot and cross product are the two components of one product**, whose length is the product of
the lengths. -/
theorem dot_sq_add_cross_sq (v w : Vec2 ℝ) :
    v.dot w * v.dot w + v.cross w * v.cross w = v.normSq * w.normSq := by
  rw [dot_eq, cross_eq, normSq_eq, normSq_eq]
  ring

theorem dot_comm (v w : Vec2 ℝ) : v.dot w = w.dot v := by
  rw [dot_eq, dot_eq, mul_comm v.x, mul_comm v.y]

/-- The cosine rule. -/
theorem normSq_sub (v w : Vec2 ℝ) : (v - w).normSq = v.normSq + w.normSq - 2 * v.dot w := by
  simp only [normSq_eq, dot_eq, sub_x, sub_y]
  ring

theorem dot_le_norm_mul_norm (v w : Vec2 ℝ) : v.dot w ≤ v.norm * w.norm := by
  refine nonneg_le_nonneg_of_sq_le_sq (mul_nonneg v.norm_nonneg w.norm_nonneg) ?_
  rw [mul_mul_mul_comm, norm_mul_self, norm_mul_self, ← dot_sq_add_cross_sq]
  exact le_add_of_nonneg_right (mul_self_nonneg _)

/-- **The lengths of two vectors differ by no more than the length of their difference.** -/
theorem abs_norm_sub_norm_le (v w : Vec2 ℝ) : |v.norm - w.norm| ≤ (v - w).norm := by
  refine Real.abs_le_sqrt ?_
  calc (v.norm - w.norm) ^ 2
      = v.normSq + w.normSq - 2 * (v.norm * w.norm) := by
        rw [← norm_mul_self v, ← norm_mul_self w]
        ring
    _ ≤ v.normSq + w.normSq - 2 * v.dot w := by linarith [dot_le_norm_mul_norm v w]
    _ = (v - w).normSq := (normSq_sub v w).symm

theorem norm_smul (k : ℝ) (v : Vec2 ℝ) : (k • v).norm = |k| * v.norm := by
  have hSq : (k • v).normSq = k * k * v.normSq := by
    simp only [normSq_eq, smul_x, smul_y]
    ring
  rw [norm_eq, hSq, Real.sqrt_mul (mul_self_nonneg k), Real.sqrt_mul_self_eq_abs, norm_eq]

/-- The parallelogram over two upright vectors is a rectangle. -/
theorem abs_cross_of_dot_eq_zero (h : v.dot w = 0) : |v.cross w| = v.norm * w.norm := by
  have hSq := dot_sq_add_cross_sq v w
  rw [h, mul_zero, zero_add] at hSq
  rw [← Real.sqrt_mul_self_eq_abs, hSq, Real.sqrt_mul v.normSq_nonneg, norm_eq, norm_eq]

/-- Only the zero vector is both upright on a vector and along it. -/
theorem eq_zero_of_dot_of_cross (hDot : v.dot w = 0) (hCross : v.cross w = 0) (hv : v ≠ 0) :
    w = 0 := by
  have hSq := dot_sq_add_cross_sq v w
  rw [hDot, hCross, mul_zero, add_zero, eq_comm, mul_eq_zero] at hSq
  exact normSq_eq_zero_iff.mp (hSq.resolve_left fun hZero => hv (normSq_eq_zero_iff.mp hZero))

/-- What stands upright on `v` is the multiple of the unit normal that its offset says. -/
theorem dot_smul_quarterCcw (hv : v ≠ 0) (hDot : w.dot v = 0) :
    w.dot (v.quarterCcw / v.norm) • (v.quarterCcw / v.norm) = w := by
  have hNorm : v.norm ≠ 0 := fun hZero => hv (norm_eq_zero_iff.mp hZero)
  have hSq := norm_mul_self v
  rw [normSq_eq] at hSq
  rw [dot_eq] at hDot
  have hScale : w.dot (v.quarterCcw / v.norm) = (w.x * v.y - w.y * v.x) / v.norm := by
    simp only [dot_eq, div_x, div_y, quarterCcw_x, quarterCcw_y]
    ring
  rw [hScale]
  refine ext ?_ ?_
  · rw [smul_x, div_x, quarterCcw_x, div_mul_div_comm, div_eq_iff (mul_ne_zero hNorm hNorm), hSq]
    linear_combination -v.x * hDot
  · rw [smul_y, div_y, quarterCcw_y, div_mul_div_comm, div_eq_iff (mul_ne_zero hNorm hNorm), hSq]
    linear_combination -v.y * hDot

theorem sub_ne_zero (h : v ≠ w) : w - v ≠ 0 := by
  intro hZero
  have hx := congrArg Vec2.x hZero
  have hy := congrArg Vec2.y hZero
  exact h (ext (sub_eq_zero.mp hx).symm (sub_eq_zero.mp hy).symm)

theorem sub_same (v : Vec2 ℝ) : v - v = 0 := ext (sub_self _) (sub_self _)

theorem add_sub_same (c v : Vec2 ℝ) : c + v - c = v :=
  ext (add_sub_cancel_left _ _) (add_sub_cancel_left _ _)

theorem sub_right_cancel {c : Vec2 ℝ} (h : v - c = w - c) : v = w := by
  have hx := congrArg Vec2.x h
  have hy := congrArg Vec2.y h
  exact ext (sub_left_inj.mp hx) (sub_left_inj.mp hy)

theorem sub_sub_sub (v w c : Vec2 ℝ) : v - c - (w - c) = v - w :=
  ext (sub_sub_sub_cancel_right _ _ _) (sub_sub_sub_cancel_right _ _ _)

end Vec2

theorem distance_eq (p q : Vec2 ℝ) : distance p q = (q - p).norm := rfl

theorem distance_comm (p q : Vec2 ℝ) : distance p q = distance q p :=
  Vec2.norm_sub_comm q p

theorem distance_eq_iff {p q c : Vec2 ℝ} :
    distance c p = distance c q ↔ (p - c).normSq = (q - c).normSq :=
  Real.sqrt_inj (Vec2.normSq_nonneg _) (Vec2.normSq_nonneg _)

theorem distance_le_iff {p q c : Vec2 ℝ} :
    distance c p ≤ distance c q ↔ (p - c).normSq ≤ (q - c).normSq :=
  Real.sqrt_le_sqrt_iff (Vec2.normSq_nonneg _)

theorem distance_self (p : Vec2 ℝ) : distance p p = 0 := by
  rw [distance_eq, Vec2.sub_same, Vec2.norm_eq_zero_iff]

theorem distance_pos {p q : Vec2 ℝ} (h : p ≠ q) : 0 < distance p q :=
  Vec2.norm_pos_iff.mpr (Vec2.sub_ne_zero h)

theorem distance_eq_zero_iff {p q : Vec2 ℝ} : distance p q = 0 ↔ p = q := by
  constructor
  · intro h
    by_contra hNe
    exact (distance_pos hNe).ne' h
  · rintro rfl
    exact distance_self p

/-- Of two points, one is at most as much farther from a third as the two are apart. -/
theorem abs_distance_sub_distance_le (p q c : Vec2 ℝ) :
    |distance c p - distance c q| ≤ distance q p := by
  have hDiff := Vec2.abs_norm_sub_norm_le (p - c) (q - c)
  rwa [Vec2.sub_sub_sub] at hDiff

@[simp] theorem midpoint_x (p q : Vec2 ℝ) : (midpoint p q).x = (p.x + q.x) / 2 := by
  show (p.x + q.x) * (0.5 : ℝ) = _
  norm_num
  ring

@[simp] theorem midpoint_y (p q : Vec2 ℝ) : (midpoint p q).y = (p.y + q.y) / 2 := by
  show (p.y + q.y) * (0.5 : ℝ) = _
  norm_num
  ring

theorem midpoint_comm (p q : Vec2 ℝ) : midpoint p q = midpoint q p := by
  refine Vec2.ext ?_ ?_
  · rw [midpoint_x, midpoint_x, add_comm]
  · rw [midpoint_y, midpoint_y, add_comm]

theorem add_half_eq_midpoint (p q : Vec2 ℝ) : p + (q - p) / (2.0 : ℝ) = midpoint p q := by
  have hTwo : (2.0 : ℝ) = 2 := by norm_num
  refine Vec2.ext ?_ ?_
  · rw [Vec2.add_x, Vec2.div_x, Vec2.sub_x, midpoint_x, hTwo]
    ring
  · rw [Vec2.add_y, Vec2.div_y, Vec2.sub_y, midpoint_y, hTwo]
    ring

/-- **The points upright over the middle of a chord are those equally far from its ends.** -/
theorem dot_sub_midpoint_eq_zero_iff (p q c : Vec2 ℝ) :
    (c - midpoint p q).dot (q - p) = 0 ↔ (p - c).normSq = (q - c).normSq := by
  simp only [Vec2.dot_eq, Vec2.normSq_eq, Vec2.sub_x, Vec2.sub_y, midpoint_x, midpoint_y]
  constructor
  · intro h
    linarith
  · intro h
    linarith

end PlaneSketch
