import Mathlib.Tactic.Ring
import PlaneSketch.Plane.Line
import PlaneSketch.Proofs.Plane.Vectors

/-!
# Lines with exact coordinates

Where two lines meet, and how far a point is from a line.

* `Line.intersect?_eq_some_iff`: two lines meet in the one point of both.
* `Line.IsFoot`: the foot of a perpendicular.  There is one on every line through two different
  points (`Line.exists_isFoot`), and only one (`Line.IsFoot.eq`).
* `Line.distance?_through`, `Line.project?_through_iff`: when the distance and the projection are
  defined, and what they are.
* `Line.projection_and_distance`: **the distance from a line is that from the foot of the
  perpendicular**, and the projection is this foot.
* `Line.project?_short`: near a short line there is a distance, but no projection.
-/

namespace PlaneSketch

open Scalar (tolerance machineEpsilon)

namespace Line

variable {l k : Line ℝ} {c p q r f f' : Vec2 ℝ}

/-! ## Points of a line -/

/-- The line passes through the point. -/
def Contains (l : Line ℝ) (p : Vec2 ℝ) : Prop := l.a * p.x + l.b * p.y = l.c

/-- Two lines do not meet when they are nearly parallel. -/
theorem intersect?_eq_none_iff : l.intersect? k = none ↔
    |l.normal.cross k.normal| < tolerance := by
  show (if |l.normal.cross k.normal| < tolerance then none else some _) = none ↔ _
  split
  · next hLt => exact iff_of_true rfl hLt
  · next hLe => exact iff_of_false (by simp) hLe

/-- **Two lines meet in the one point of both**, unless they are nearly parallel. -/
theorem intersect?_eq_some_iff : l.intersect? k = some c ↔
    tolerance ≤ |l.normal.cross k.normal| ∧ l.Contains c ∧ k.Contains c := by
  have hCross : l.normal.cross k.normal = l.a * k.b - l.b * k.a := rfl
  rw [hCross]
  unfold intersect? Contains
  show (if |l.a * k.b - l.b * k.a| < tolerance then _ else _) = _ ↔ _
  split
  · next hLt => simp [hLt.not_ge]
  · next hLe =>
    have hLe := not_lt.mp hLe
    have hDet : l.a * k.b - l.b * k.a ≠ 0 := Scalar.ne_zero_of_tolerance_le hLe
    rw [Option.some_inj]
    constructor
    · rintro rfl
      refine ⟨hLe, ?_, ?_⟩
      · rw [mul_div_assoc', mul_div_assoc', ← add_div, div_eq_iff hDet]
        ring
      · rw [mul_div_assoc', mul_div_assoc', ← add_div, div_eq_iff hDet]
        ring
    · rintro ⟨-, hFirst, hSecond⟩
      refine Vec2.ext ((div_eq_iff hDet).mpr ?_) ((div_eq_iff hDet).mpr ?_)
      · rw [← hFirst, ← hSecond]
        ring
      · rw [← hFirst, ← hSecond]
        ring

/-- The line through `p` upright on `v`. -/
theorem through_quarterCcw (p v : Vec2 ℝ) :
    through p (p + v.quarterCcw) = ⟨v.x, v.y, p.dot v⟩ := by
  rw [through, mk.injEq, Vec2.add_x, Vec2.add_y, Vec2.quarterCcw_x, Vec2.quarterCcw_y, Vec2.dot_eq]
  refine ⟨by ring, by ring, by ring⟩

/-- The bisector holds the points that are equally far from both ends of the chord. -/
theorem contains_bisector_iff (p q c : Vec2 ℝ) :
    (⟨(q - p).x, (q - p).y, (midpoint p q).dot (q - p)⟩ : Line ℝ).Contains c ↔
      (p - c).normSq = (q - c).normSq := by
  rw [← dot_sub_midpoint_eq_zero_iff, Contains, Vec2.dot_eq, Vec2.dot_eq,
    Vec2.sub_x c, Vec2.sub_y c]
  constructor
  · intro h
    linarith
  · intro h
    linarith

/-- What the equation of the line through `p` and `q` leaves over at `r`. -/
theorem offset_through (p q r : Vec2 ℝ) :
    (through p q).a * r.x + (through p q).b * r.y - (through p q).c = (q - p).cross (r - p) := by
  simp only [through, Vec2.cross_eq, Vec2.sub_x, Vec2.sub_y]
  ring

theorem contains_through_iff : (through p q).Contains r ↔ (q - p).cross (r - p) = 0 := by
  rw [Contains, ← sub_eq_zero, offset_through]

theorem normSq_normal_through (p q : Vec2 ℝ) :
    (through p q).normal.normSq = (q - p).normSq := by
  simp only [normal, through, Vec2.normSq_eq, Vec2.sub_x, Vec2.sub_y]
  ring

/-- **The distance from a line is the height of the parallelogram** that two of its points span with
the point, over the line as its base. -/
theorem distance?_through (p q r : Vec2 ℝ) : (through p q).distance? r =
    if distance p q < machineEpsilon then none
    else some (|(q - p).cross (r - p)| / distance p q) := by
  have hNorm : (through p q).normal.norm = distance p q := by
    rw [distance_eq, Vec2.norm_eq, Vec2.norm_eq, normSq_normal_through]
  rw [distance?, hNorm, offset_through]
  rfl

/-! ## The foot of a perpendicular -/

/-- The perpendicular from `r` meets the line through `p` and `q` in `f`. -/
structure IsFoot (p q r f : Vec2 ℝ) : Prop where
  contains : (through p q).Contains f
  upright : (r - f).dot (q - p) = 0

theorem exists_isFoot (h : p ≠ q) (r : Vec2 ℝ) : ∃ f, IsFoot p q r f := by
  have hBase : (q - p).normSq ≠ 0 := fun hZero =>
    Vec2.sub_ne_zero h (Vec2.normSq_eq_zero_iff.mp hZero)
  refine ⟨p + ((r - p).dot (q - p) / (q - p).normSq) • (q - p), contains_through_iff.mpr ?_, ?_⟩
  · simp only [Vec2.cross_eq, Vec2.sub_x, Vec2.sub_y, Vec2.add_x, Vec2.add_y, Vec2.smul_x,
      Vec2.smul_y]
    ring
  · calc (r - (p + ((r - p).dot (q - p) / (q - p).normSq) • (q - p))).dot (q - p)
        = (r - p).dot (q - p) - (r - p).dot (q - p) / (q - p).normSq * (q - p).normSq := by
          simp only [Vec2.dot_eq, Vec2.normSq_eq, Vec2.sub_x, Vec2.sub_y, Vec2.add_x, Vec2.add_y,
            Vec2.smul_x, Vec2.smul_y]
          ring
      _ = 0 := by rw [div_mul_cancel₀ _ hBase, sub_self]

/-- There is no other foot. -/
theorem IsFoot.eq (h : IsFoot p q r f) (h' : IsFoot p q r f') (hNe : p ≠ q) : f = f' := by
  have hDot : (q - p).dot (f' - f) = 0 := by
    have hFirst := h.upright
    have hSecond := h'.upright
    simp only [Vec2.dot_eq, Vec2.sub_x, Vec2.sub_y] at hFirst hSecond ⊢
    linarith
  have hCross : (q - p).cross (f' - f) = 0 := by
    have hFirst := contains_through_iff.mp h.contains
    have hSecond := contains_through_iff.mp h'.contains
    simp only [Vec2.cross_eq, Vec2.sub_x, Vec2.sub_y] at hFirst hSecond ⊢
    linarith
  by_contra hFeet
  exact Vec2.sub_ne_zero hFeet (Vec2.eq_zero_of_dot_of_cross hDot hCross (Vec2.sub_ne_zero hNe))

/-- The height over the line is the distance from the foot. -/
theorem IsFoot.abs_cross_eq (h : IsFoot p q r f) :
    |(q - p).cross (r - p)| = distance p q * (r - f).norm := by
  have hCross : (q - p).cross (r - p) = (q - p).cross (r - f) := by
    have hOn := contains_through_iff.mp h.contains
    simp only [Vec2.cross_eq, Vec2.sub_x, Vec2.sub_y] at hOn ⊢
    linarith
  have hDot : (q - p).dot (r - f) = 0 := by rw [Vec2.dot_comm, h.upright]
  rw [hCross, Vec2.abs_cross_of_dot_eq_zero hDot, distance_eq]

/-- **The projection is the foot, but of a long enough line only**: the two lines of the
construction count as parallel when the square of the length is below the tolerance. -/
theorem project?_through_iff : (through p q).project? r = some f ↔
    tolerance ≤ (q - p).normSq ∧ IsFoot p q r f := by
  have hDet : |(through p q).normal.cross (through r (r + (through p q).normal)).normal| =
      (q - p).normSq := by
    rw [← normSq_normal_through, ← abs_of_nonneg (through p q).normal.normSq_nonneg]
    refine congrArg _ ?_
    simp only [normal, through, Vec2.cross_eq, Vec2.normSq_eq, Vec2.add_x, Vec2.add_y]
    ring
  have hUpright : (r + (through p q).normal - r).cross (f - r) = (r - f).dot (q - p) := by
    simp only [normal, through, Vec2.cross_eq, Vec2.dot_eq, Vec2.sub_x, Vec2.sub_y, Vec2.add_x,
      Vec2.add_y]
    ring
  rw [project?, intersect?_eq_some_iff, hDet, contains_through_iff (p := r), hUpright]
  exact and_congr_right fun _ => ⟨fun h => ⟨h.1, h.2⟩, fun h => ⟨h.1, h.2⟩⟩

theorem project?_eq_none (hShort : (q - p).normSq < tolerance) (r : Vec2 ℝ) :
    (through p q).project? r = none := by
  refine Option.eq_none_iff_forall_ne_some.mpr fun f hSome => ?_
  exact (project?_through_iff.mp hSome).1.not_gt hShort

theorem project?_through (h : IsFoot p q r f) : (through p q).project? r =
    if (q - p).normSq < tolerance then none else some f := by
  split
  · next hShort => exact project?_eq_none hShort r
  · next hLong => exact project?_through_iff.mpr ⟨not_lt.mp hLong, h⟩

/-- Points that are too close to be told apart make a line that is too short to project on. -/
theorem normSq_lt_tolerance (h : distance p q < machineEpsilon) : (q - p).normSq < tolerance :=
  calc (q - p).normSq = distance p q * distance p q := (Vec2.norm_mul_self _).symm
    _ ≤ machineEpsilon * machineEpsilon := mul_self_le_mul_self (Vec2.norm_nonneg _) h.le
    _ < tolerance := by
      rw [Scalar.machineEpsilon_real, Scalar.tolerance_real]
      norm_num

/-- **The distance from a line is the distance from the foot of the perpendicular, and the
projection is this foot.**  The distance is defined unless the two points of the line are equal or
too close to be told apart; the projection only if the square of their distance is not below the
tolerance. -/
theorem projection_and_distance (p q r : Vec2 ℝ) :
    (distance p q < machineEpsilon →
      (through p q).project? r = none ∧ (through p q).distance? r = none) ∧
    (machineEpsilon ≤ distance p q → ∃ f, IsFoot p q r f ∧ (∀ f', IsFoot p q r f' → f' = f) ∧
      (through p q).distance? r = some (r - f).norm ∧
      (through p q).project? r = if (q - p).normSq < tolerance then none else some f) := by
  refine ⟨fun hNear => ⟨project?_eq_none (normSq_lt_tolerance hNear) r, ?_⟩, fun hApart => ?_⟩
  · rw [distance?_through, if_pos hNear]
  · have hPos : 0 < distance p q := by
      refine lt_of_lt_of_le ?_ hApart
      rw [Scalar.machineEpsilon_real]
      norm_num
    have hNe : p ≠ q := by
      rintro rfl
      exact hPos.ne' (distance_self p)
    obtain ⟨f, hFoot⟩ := exists_isFoot hNe r
    refine ⟨f, hFoot, fun f' hFoot' => hFoot'.eq hFoot hNe, ?_, project?_through hFoot⟩
    rw [distance?_through, if_neg hApart.not_gt, hFoot.abs_cross_eq,
      mul_div_cancel_left₀ _ hPos.ne']

/-- A point over the axis, and a line through one point twice. -/
theorem projection_and_distance_axis :
    (distance (⟨1, 1⟩ : Vec2 ℝ) ⟨1, 1⟩ < machineEpsilon ∧
      (through ⟨1, 1⟩ ⟨1, 1⟩).project? (⟨0, 0⟩ : Vec2 ℝ) = none ∧
      (through ⟨1, 1⟩ ⟨1, 1⟩).distance? (⟨0, 0⟩ : Vec2 ℝ) = none) ∧
    machineEpsilon ≤ distance (⟨0, 0⟩ : Vec2 ℝ) ⟨10, 0⟩ ∧
      (through ⟨0, 0⟩ ⟨10, 0⟩).project? (⟨3, 4⟩ : Vec2 ℝ) = some ⟨3, 0⟩ ∧
      (through ⟨0, 0⟩ ⟨10, 0⟩).distance? (⟨3, 4⟩ : Vec2 ℝ) = some 4 := by
  have hNear : distance (⟨1, 1⟩ : Vec2 ℝ) ⟨1, 1⟩ < machineEpsilon := by
    rw [distance_self, Scalar.machineEpsilon_real]
    norm_num
  have hLength : distance (⟨0, 0⟩ : Vec2 ℝ) ⟨10, 0⟩ = 10 :=
    Vec2.norm_of_normSq_eq (by norm_num) (by norm_num [Vec2.normSq_eq])
  have hApart : machineEpsilon ≤ distance (⟨0, 0⟩ : Vec2 ℝ) ⟨10, 0⟩ := by
    rw [hLength, Scalar.machineEpsilon_real]
    norm_num
  have hFoot : IsFoot ⟨0, 0⟩ ⟨10, 0⟩ ⟨3, 4⟩ ⟨3, 0⟩ :=
    ⟨by norm_num [Contains, through], by norm_num [Vec2.dot_eq]⟩
  obtain ⟨f, -, hOnly, hDistance, hProject⟩ := (projection_and_distance _ _ ⟨3, 4⟩).2 hApart
  obtain rfl := hOnly _ hFoot
  refine ⟨⟨hNear, (projection_and_distance _ _ _).1 hNear⟩, hApart, ?_, ?_⟩
  · rw [hProject, if_neg]
    norm_num [Vec2.normSq_eq, Scalar.tolerance_real]
  · exact hDistance.trans (congrArg some
      (Vec2.norm_of_normSq_eq (by norm_num) (by norm_num [Vec2.normSq_eq])))

/-- **Near a short line there is a distance, but no projection.** -/
theorem project?_short :
    machineEpsilon ≤ distance (⟨0, 0⟩ : Vec2 ℝ) ⟨1 / 512, 0⟩ ∧
      (through ⟨0, 0⟩ ⟨1 / 512, 0⟩).distance? (⟨3, 4⟩ : Vec2 ℝ) = some 4 ∧
      (through ⟨0, 0⟩ ⟨1 / 512, 0⟩).project? (⟨3, 4⟩ : Vec2 ℝ) = none := by
  have hLength : distance (⟨0, 0⟩ : Vec2 ℝ) ⟨1 / 512, 0⟩ = 1 / 512 :=
    Vec2.norm_of_normSq_eq (by norm_num) (by norm_num [Vec2.normSq_eq])
  have hFoot : IsFoot ⟨0, 0⟩ ⟨1 / 512, 0⟩ ⟨3, 4⟩ ⟨3, 0⟩ :=
    ⟨by norm_num [Contains, through], by norm_num [Vec2.dot_eq]⟩
  refine ⟨?_, ?_, ?_⟩
  · rw [hLength, Scalar.machineEpsilon_real]
    norm_num
  · rw [distance?_through, hLength, if_neg]
    · norm_num [Vec2.cross_eq]
    · rw [Scalar.machineEpsilon_real]
      norm_num
  · rw [project?_through hFoot, if_pos]
    norm_num [Vec2.normSq_eq, Scalar.tolerance_real]

end Line

end PlaneSketch
