import Mathlib.Order.Bounds.Basic
import Mathlib.Tactic.Ring
import PlaneSketch.Plane.Segment
import PlaneSketch.Proofs.Plane.Vectors

/-!
# Segments with exact coordinates

A point of a segment divides it in a proportion between 0 and 1.  Along the carrier line the
distance from a point `p` grows with the distance of the proportion from that of the foot of the
perpendicular from `p`, so the proportion of the nearest point is the one between 0 and 1 next to it.

* `Segment.carrier`, `Segment.nearest`: the points of a segment, and the one nearest to `p`.
* `Segment.isLeast_nearest`: none of its points is nearer.
* `Segment.contains_pointAt_iff`: of the carrier line, `contains` picks the points of the segment.
* `Segment.distanceTo_eq`: the distance from a segment that is not too short is that from its
  nearest point.
* `Segment.distanceTo_least`: **the distance from a segment is the least distance from its points**,
  and off by less than the tolerance where the segment is short.
-/

namespace PlaneSketch

open Scalar (tolerance)

namespace Segment

variable {s : Segment ℝ} {p : Vec2 ℝ} {t t' : ℝ}

/-! ## Points of a segment -/

/-- The point of the carrier line that divides the segment in the proportion `t`. -/
noncomputable def pointAt (s : Segment ℝ) (t : ℝ) : Vec2 ℝ := s.p1 + t • s.vector

/-- The points of the segment. -/
def carrier (s : Segment ℝ) : Set (Vec2 ℝ) := {q | ∃ t, 0 ≤ t ∧ t ≤ 1 ∧ q = s.pointAt t}

/-- The proportion in which the foot of the perpendicular from `p` divides the segment. -/
noncomputable def footAt (s : Segment ℝ) (p : Vec2 ℝ) : ℝ :=
  (p - s.p1).dot s.vector / s.vector.normSq

/-- The point of the segment that is nearest to `p`. -/
noncomputable def nearest (s : Segment ℝ) (p : Vec2 ℝ) : Vec2 ℝ :=
  s.pointAt (max 0 (min 1 (s.footAt p)))

@[simp] theorem pointAt_x (s : Segment ℝ) (t : ℝ) :
    (s.pointAt t).x = s.p1.x + t * (s.p2.x - s.p1.x) := rfl

@[simp] theorem pointAt_y (s : Segment ℝ) (t : ℝ) :
    (s.pointAt t).y = s.p1.y + t * (s.p2.y - s.p1.y) := rfl

@[simp] theorem vector_x (s : Segment ℝ) : s.vector.x = s.p2.x - s.p1.x := rfl

@[simp] theorem vector_y (s : Segment ℝ) : s.vector.y = s.p2.y - s.p1.y := rfl

theorem pointAt_zero (s : Segment ℝ) : s.pointAt 0 = s.p1 := Vec2.ext (by simp) (by simp)

theorem pointAt_one (s : Segment ℝ) : s.pointAt 1 = s.p2 := Vec2.ext (by simp) (by simp)

theorem distance_first_pointAt (s : Segment ℝ) (t : ℝ) :
    distance s.p1 (s.pointAt t) = |t| * s.length := by
  rw [distance_eq, pointAt, Vec2.add_sub_same, Vec2.norm_smul, length]

/-! ## The nearest point -/

theorem footAt_mul_normSq (s : Segment ℝ) (p : Vec2 ℝ) :
    s.footAt p * s.vector.normSq = (p - s.p1).dot s.vector := by
  by_cases hZero : s.vector.normSq = 0
  · rw [hZero, Vec2.normSq_eq_zero_iff.mp hZero, mul_zero, Vec2.dot_eq, Vec2.zero_x, Vec2.zero_y,
      mul_zero, mul_zero, add_zero]
  · exact div_mul_cancel₀ _ hZero

/-- The perpendicular from `p` is upright on the segment. -/
theorem dot_pointAt_footAt (s : Segment ℝ) (p : Vec2 ℝ) :
    (s.pointAt (s.footAt p) - p).dot s.vector = 0 := by
  have hFoot := s.footAt_mul_normSq p
  simp only [Vec2.dot_eq, Vec2.normSq_eq, Vec2.sub_x, Vec2.sub_y, pointAt_x, pointAt_y, vector_x,
    vector_y] at hFoot ⊢
  linear_combination hFoot

/-- The foot, the point and `p` make a right triangle. -/
theorem normSq_pointAt_sub (s : Segment ℝ) (p : Vec2 ℝ) (t : ℝ) :
    (s.pointAt t - p).normSq = (s.pointAt (s.footAt p) - p).normSq +
      (t - s.footAt p) * (t - s.footAt p) * s.vector.normSq := by
  have hUpright := s.dot_pointAt_footAt p
  simp only [Vec2.dot_eq, Vec2.normSq_eq, Vec2.sub_x, Vec2.sub_y, pointAt_x, pointAt_y, vector_x,
    vector_y] at hUpright ⊢
  linear_combination 2 * (t - s.footAt p) * hUpright

/-- **The nearer a proportion is to that of the foot, the nearer is the point.** -/
theorem distance_pointAt_le (h : |t - s.footAt p| ≤ |t' - s.footAt p|) :
    distance p (s.pointAt t) ≤ distance p (s.pointAt t') := by
  rw [distance_le_iff, normSq_pointAt_sub, normSq_pointAt_sub s p t']
  exact add_le_add_right
    (mul_le_mul_of_nonneg_right (abs_le_iff_mul_self_le.mp h) s.vector.normSq_nonneg) _

/-- No number between 0 and 1 is nearer to `x` than `x` cut off at both. -/
theorem abs_clamp_sub_le {x : ℝ} (hNonneg : 0 ≤ t) (hLe : t ≤ 1) :
    |max 0 (min 1 x) - x| ≤ |t - x| := by
  rcases lt_or_ge x 0 with hx | hx
  · rw [min_eq_right (by linarith), max_eq_left hx.le, abs_of_pos (by linarith),
      abs_of_pos (by linarith)]
    linarith
  · rw [max_eq_right (le_min zero_le_one hx)]
    rcases le_or_gt x 1 with hx' | hx'
    · rw [min_eq_right hx', sub_self, abs_zero]
      exact abs_nonneg _
    · rw [min_eq_left hx'.le, abs_of_neg (by linarith), abs_of_neg (by linarith)]
      linarith

theorem clamp_mem (x : ℝ) : 0 ≤ max 0 (min 1 x) ∧ max 0 (min 1 x) ≤ 1 :=
  ⟨le_max_left _ _, max_le zero_le_one (min_le_left _ _)⟩

/-- **None of the points of a segment is nearer than its nearest point.** -/
theorem isLeast_nearest (s : Segment ℝ) (p : Vec2 ℝ) :
    IsLeast (distance p '' s.carrier) (distance p (s.nearest p)) := by
  have hClamp := clamp_mem (s.footAt p)
  refine ⟨⟨_, ⟨_, hClamp.1, hClamp.2, rfl⟩, rfl⟩, ?_⟩
  rintro _ ⟨_, ⟨t, hNonneg, hLe, rfl⟩, rfl⟩
  exact distance_pointAt_le (abs_clamp_sub_le hNonneg hLe)

/-! ## The points that are contained -/

theorem length_pos (hLong : tolerance ≤ s.length) : 0 < s.length := by
  refine lt_of_lt_of_le ?_ hLong
  rw [Scalar.tolerance_real]
  norm_num

theorem normSq_vector_pos (hLong : tolerance ≤ s.length) : 0 < s.vector.normSq := by
  rw [← Vec2.norm_mul_self]
  exact mul_pos (length_pos hLong) (length_pos hLong)

theorem contains_iff (hLong : tolerance ≤ s.length) : s.contains p = true ↔
    |(p - s.p1).cross s.vector / s.length| < tolerance ∧
      between s.p1.x s.p2.x p.x = true ∧ between s.p1.y s.p2.y p.y = true := by
  rw [contains, if_neg hLong.not_gt]
  simp only [Bool.and_eq_true, decide_eq_true_eq, and_assoc, Scalar.abs_real]

theorem between_of_proportion {a b : ℝ} (hNonneg : 0 ≤ t) (hLe : t ≤ 1) :
    between a b (a + t * (b - a)) = true := by
  simp only [between, Bool.or_eq_true, Bool.and_eq_true, decide_eq_true_eq]
  rcases le_total a b with hab | hba
  · exact .inl ⟨by nlinarith, by nlinarith⟩
  · exact .inr ⟨by nlinarith, by nlinarith⟩

/-- From `a`, what lies between `a` and `b` is in the direction of `b` and no further. -/
theorem mul_sub_of_between {a b x : ℝ} (h : between a b x = true) :
    0 ≤ (x - a) * (b - a) ∧ (x - a) * (b - a) ≤ (b - a) * (b - a) := by
  simp only [between, Bool.or_eq_true, Bool.and_eq_true, decide_eq_true_eq] at h
  rcases h with ⟨hax, hxb⟩ | ⟨hbx, hxa⟩
  · exact ⟨by nlinarith, by nlinarith⟩
  · exact ⟨by nlinarith, by nlinarith⟩

/-- The foot from a point inside the box of the endpoints lies on the segment. -/
theorem footAt_mem_of_contains (hLong : tolerance ≤ s.length) (h : s.contains p = true) :
    0 ≤ s.footAt p ∧ s.footAt p ≤ 1 := by
  obtain ⟨-, hx, hy⟩ := (contains_iff hLong).mp h
  obtain ⟨hxNonneg, hxLe⟩ := mul_sub_of_between hx
  obtain ⟨hyNonneg, hyLe⟩ := mul_sub_of_between hy
  have hPos := normSq_vector_pos hLong
  rw [footAt, le_div_iff₀ hPos, zero_mul, div_le_one hPos]
  exact ⟨add_nonneg hxNonneg hyNonneg, add_le_add hxLe hyLe⟩

theorem footAt_pointAt (hLong : tolerance ≤ s.length) (t : ℝ) : s.footAt (s.pointAt t) = t := by
  rw [footAt, div_eq_iff (normSq_vector_pos hLong).ne']
  simp only [Vec2.dot_eq, Vec2.normSq_eq, Vec2.sub_x, Vec2.sub_y, pointAt_x, pointAt_y, vector_x,
    vector_y]
  ring

/-- **Of the carrier line, the points of the segment are contained.** -/
theorem contains_pointAt_iff (hLong : tolerance ≤ s.length) :
    s.contains (s.pointAt t) = true ↔ 0 ≤ t ∧ t ≤ 1 := by
  constructor
  · intro h
    have hFoot := footAt_mem_of_contains hLong h
    rwa [footAt_pointAt hLong] at hFoot
  · rintro ⟨hNonneg, hLe⟩
    have hCross : (s.pointAt t - s.p1).cross s.vector = 0 := by
      simp only [Vec2.cross_eq, Vec2.sub_x, Vec2.sub_y, pointAt_x, pointAt_y, vector_x, vector_y]
      ring
    refine (contains_iff hLong).mpr ⟨?_, between_of_proportion hNonneg hLe,
      between_of_proportion hNonneg hLe⟩
    rw [hCross, zero_div, abs_zero, Scalar.tolerance_real]
    norm_num

/-! ## The distance -/

/-- The height over the segment is the distance from the foot. -/
theorem distance_pointAt_footAt (hLong : tolerance ≤ s.length) :
    distance p (s.pointAt (s.footAt p)) = |(p - s.p1).cross s.vector / s.length| := by
  have hUpright := Vec2.abs_cross_of_dot_eq_zero (s.dot_pointAt_footAt p)
  have hCross : (s.pointAt (s.footAt p) - p).cross s.vector = -(p - s.p1).cross s.vector := by
    simp only [Vec2.cross_eq, Vec2.sub_x, Vec2.sub_y, pointAt_x, pointAt_y, vector_x, vector_y]
    ring
  rw [hCross, abs_neg] at hUpright
  rw [abs_div, abs_of_pos (length_pos hLong), hUpright, distance_eq]
  exact (mul_div_cancel_right₀ _ (length_pos hLong).ne').symm

theorem nearest_of_mem (h : 0 ≤ s.footAt p ∧ s.footAt p ≤ 1) :
    s.nearest p = s.pointAt (s.footAt p) := by
  rw [nearest, min_eq_right h.2, max_eq_right h.1]

/-- **The nearer endpoint is the nearest point where the foot lies off the segment.** -/
theorem distance_nearest_of_not_mem (h : ¬ (0 ≤ s.footAt p ∧ s.footAt p ≤ 1)) :
    distance p (s.nearest p) = min (distance p s.p1) (distance p s.p2) := by
  rw [← s.pointAt_zero, ← s.pointAt_one]
  rcases not_and_or.mp h with hNeg | hGt
  · have hNeg := not_le.mp hNeg
    rw [nearest, min_eq_right (by linarith), max_eq_left hNeg.le, min_eq_left]
    refine distance_pointAt_le ?_
    rw [abs_of_pos (by linarith), abs_of_pos (by linarith)]
    linarith
  · have hGt := not_le.mp hGt
    rw [nearest, min_eq_left hGt.le, max_eq_right zero_le_one, min_eq_right]
    refine distance_pointAt_le ?_
    rw [abs_of_neg (by linarith), abs_of_neg (by linarith)]
    linarith

/-- **A segment is as far away as its nearest point**, unless it is too short. -/
theorem distanceTo_eq (hLong : tolerance ≤ s.length) (p : Vec2 ℝ) :
    s.distanceTo p = distance p (s.nearest p) := by
  have hLength : s.length * s.length = s.vector.normSq := Vec2.norm_mul_self _
  have hScale : (p - s.p1).dot (s.vector / s.length) = (p - s.p1).dot s.vector / s.length := by
    simp only [Vec2.dot_eq, Vec2.div_x, Vec2.div_y]
    ring
  have hFoot : s.p1 + (p - s.p1).dot (s.vector / s.length) • (s.vector / s.length) =
      s.pointAt (s.footAt p) := by
    rw [hScale, pointAt, footAt, ← hLength]
    refine congrArg (s.p1 + ·) (Vec2.ext ?_ ?_)
    · simp only [Vec2.smul_x, Vec2.div_x]
      ring
    · simp only [Vec2.smul_y, Vec2.div_y]
      ring
  have hHeight : (p - s.p1).cross (s.vector / s.length) =
      (p - s.p1).cross s.vector / s.length := by
    simp only [Vec2.cross_eq, Vec2.div_x, Vec2.div_y]
    ring
  -- the projection of the program is the foot, and its height the distance from the foot
  unfold distanceTo
  rw [if_neg hLong.not_gt]
  dsimp only
  rw [hFoot, hHeight, Scalar.abs_real, Scalar.smaller_real, ← distance_pointAt_footAt hLong]
  split
  · next hOn => rw [nearest_of_mem ((contains_pointAt_iff hLong).mp hOn)]
  · next hOff =>
    have hOff := fun hMem => hOff ((contains_pointAt_iff hLong).mpr hMem)
    exact (distance_nearest_of_not_mem hOff).symm

/-- A segment that is too short is as far away as its first endpoint, and so are all its points but
for its length. -/
theorem abs_distanceTo_sub_le (hShort : s.length < tolerance) (p : Vec2 ℝ) :
    |s.distanceTo p - distance p (s.nearest p)| ≤ s.length := by
  have hClamp := clamp_mem (s.footAt p)
  rw [distanceTo, if_pos hShort, distance_comm s.p1]
  calc |distance p s.p1 - distance p (s.nearest p)|
      ≤ distance (s.nearest p) s.p1 := abs_distance_sub_distance_le _ _ _
    _ = |max 0 (min 1 (s.footAt p))| * s.length := by
        rw [distance_comm, nearest, distance_first_pointAt]
    _ ≤ 1 * s.length := by
        rw [abs_of_nonneg hClamp.1]
        exact mul_le_mul_of_nonneg_right hClamp.2 (Vec2.norm_nonneg _)
    _ = s.length := one_mul _

/-- What is contained is near. -/
theorem distanceTo_lt_of_contains (h : s.contains p = true) : s.distanceTo p < tolerance := by
  rcases lt_or_ge s.length tolerance with hShort | hLong
  · rw [contains, if_pos hShort, decide_eq_true_eq] at h
    rwa [distanceTo, if_pos hShort]
  · rw [distanceTo_eq hLong, nearest_of_mem (footAt_mem_of_contains hLong h),
      distance_pointAt_footAt hLong]
    exact ((contains_iff hLong).mp h).1

/-- **The distance from a segment is the least distance from its points.**  Where the segment is
shorter than the tolerance, it is off by less than that.  A point that is contained is nearer than
the tolerance. -/
theorem distanceTo_least (s : Segment ℝ) (p : Vec2 ℝ) :
    (tolerance ≤ s.length → IsLeast (distance p '' s.carrier) (s.distanceTo p)) ∧
    (s.length < tolerance → ∃ least, IsLeast (distance p '' s.carrier) least ∧
      |s.distanceTo p - least| < tolerance) ∧
    (s.contains p = true → s.distanceTo p < tolerance) := by
  refine ⟨fun hLong => ?_, fun hShort => ?_, distanceTo_lt_of_contains⟩
  · rw [distanceTo_eq hLong]
    exact s.isLeast_nearest p
  · exact ⟨_, s.isLeast_nearest p, (abs_distanceTo_sub_le hShort p).trans_lt hShort⟩

/-- The segment from a point to the origin. -/
noncomputable def toOrigin (p : Vec2 ℝ) : Segment ℝ := ⟨p, 0⟩

theorem length_toOrigin {k : ℝ} (hk : 0 ≤ k) (h : p.normSq = k * k) : (toOrigin p).length = k := by
  refine Vec2.norm_of_normSq_eq hk (Eq.trans ?_ h)
  simp only [toOrigin, vector, Vec2.normSq_eq, Vec2.sub_x, Vec2.sub_y, Vec2.zero_x, Vec2.zero_y,
    zero_sub, neg_mul_neg]

/-- A point beside a slanted segment, one beyond a short one, and one in the middle. -/
theorem distanceTo_least_toOrigin :
    (tolerance ≤ (toOrigin ⟨3, 4⟩).length ∧
      IsLeast (distance ⟨11 / 2, -1⟩ '' (toOrigin ⟨3, 4⟩).carrier) 5) ∧
    ((toOrigin ⟨1 / 200000, 0⟩).length < tolerance ∧
      ∃ least, IsLeast (distance ⟨-1, 0⟩ '' (toOrigin ⟨1 / 200000, 0⟩).carrier) least ∧
        |200001 / 200000 - least| < tolerance) ∧
    (toOrigin ⟨3, 4⟩).contains ⟨3 / 2, 2⟩ = true ∧
      (toOrigin ⟨3, 4⟩).distanceTo ⟨3 / 2, 2⟩ < tolerance := by
  have hLong : tolerance ≤ (toOrigin ⟨3, 4⟩).length := by
    rw [length_toOrigin (k := 5) (by norm_num) (by norm_num [Vec2.normSq_eq]),
      Scalar.tolerance_real]
    norm_num
  have hShort : (toOrigin ⟨1 / 200000, 0⟩).length < tolerance := by
    rw [length_toOrigin (k := 1 / 200000) (by norm_num) (by norm_num [Vec2.normSq_eq]),
      Scalar.tolerance_real]
    norm_num
  have hMiddle : (toOrigin ⟨3, 4⟩).pointAt (1 / 2) = ⟨3 / 2, 2⟩ :=
    Vec2.ext (by norm_num [toOrigin]) (by norm_num [toOrigin])
  have hContains : (toOrigin ⟨3, 4⟩).contains ⟨3 / 2, 2⟩ = true := by
    rw [← hMiddle, contains_pointAt_iff hLong]
    norm_num
  have hBeside : (toOrigin ⟨3, 4⟩).distanceTo ⟨11 / 2, -1⟩ = 5 := by
    have hFoot : (toOrigin ⟨3, 4⟩).footAt ⟨11 / 2, -1⟩ = 1 / 2 := by
      norm_num [footAt, Vec2.dot_eq, Vec2.normSq_eq, toOrigin]
    rw [distanceTo_eq hLong, nearest_of_mem (by norm_num [hFoot]), hFoot, hMiddle]
    exact Vec2.norm_of_normSq_eq (by norm_num) (by norm_num [Vec2.normSq_eq])
  have hBeyond : (toOrigin ⟨1 / 200000, 0⟩).distanceTo ⟨-1, 0⟩ = 200001 / 200000 := by
    rw [distanceTo, if_pos hShort]
    exact Vec2.norm_of_normSq_eq (by norm_num) (by norm_num [Vec2.normSq_eq, toOrigin])
  refine ⟨⟨hLong, ?_⟩, ⟨hShort, ?_⟩, hContains, (distanceTo_least _ _).2.2 hContains⟩
  · rw [← hBeside]
    exact (distanceTo_least _ _).1 hLong
  · rw [← hBeyond]
    exact (distanceTo_least _ _).2.1 hShort

end Segment

end PlaneSketch
