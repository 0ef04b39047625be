import Mathlib.Tactic.Ring
import PlaneSketch.Plane.Arc
import PlaneSketch.Proofs.Plane.Angle
import PlaneSketch.Proofs.Plane.Lines

/-!
# The arc over three points

Which of the two arcs of their circle `Arc.through?` lays over three points.

* `Arc.through?_eq_some_iff`: the centre is equally far from all three points, and the endpoints are
  swapped by the turn from the first point to the third about it.
* `Arc.center_around`: an arc has the centre its offset was measured from.
* `Arc.through?_circumscribes`: there is an arc unless the three points are nearly collinear, and
  **its circle is the only one through all three**.
* `Arc.through?_thirdPoint`: the third point lies on the circle, and **on the arc exactly when the
  turn about the centre and the turn over the three points agree**; otherwise it lies on the
  complementary arc.
* `Arc.through?_misses`: they need not agree.
-/

namespace PlaneSketch

open Scalar (tolerance machineEpsilon)

/-! ## The centre -/

namespace Arc

variable {p1 p2 p c : Vec2 ℝ} {a : Arc ℝ}

/-- The arc from `p1` to `p2` whose offset is measured from `c`. -/
noncomputable def around (c p1 p2 : Vec2 ℝ) : Arc ℝ :=
  ⟨p1, p2, (c - midpoint p1 p2).dot (normal ⟨p1, p2, 0⟩)⟩

theorem normal_eq (hApart : machineEpsilon < distance a.p1 a.p2) :
    a.normal = (a.p2 - a.p1).quarterCcw / (a.p2 - a.p1).norm := by
  rw [distance_eq] at hApart
  rw [normal, Vec2.unit?, Vec2.norm_quarterCcw, if_neg (not_le.mpr hApart)]
  rfl

/-- **An arc has the centre its offset was measured from**, if that is equally far from both
endpoints. -/
theorem center_around (hApart : machineEpsilon < distance p1 p2)
    (hEq : (p1 - c).normSq = (p2 - c).normSq) : (around c p1 p2).center = c := by
  have hOffset := Vec2.dot_smul_quarterCcw (Vec2.ne_zero_of_machineEpsilon_lt hApart)
    ((dot_sub_midpoint_eq_zero_iff p1 p2 c).mpr hEq)
  have hNormal : (around c p1 p2).normal = (p2 - p1).quarterCcw / (p2 - p1).norm :=
    normal_eq hApart
  rw [← hNormal] at hOffset
  calc (around c p1 p2).center
      = midpoint p1 p2 + (c - midpoint p1 p2).dot (around c p1 p2).normal •
          (around c p1 p2).normal := rfl
    _ = midpoint p1 p2 + (c - midpoint p1 p2) := by rw [hOffset]
    _ = c := Vec2.ext (add_sub_cancel _ _) (add_sub_cancel _ _)

/-- The complementary arc has the same centre. -/
theorem center_inverted (a : Arc ℝ) : a.inverted.center = a.center := by
  unfold center chordMidpoint inverted normal Vec2.unit?
  rw [Vec2.norm_quarterCcw, Vec2.norm_quarterCcw, Vec2.norm_sub_comm a.p1, midpoint_comm a.p2]
  refine Vec2.ext ?_ ?_
  · split
    · simp
    · simp only [Option.getD_some, Vec2.add_x, Vec2.smul_x, Vec2.div_x, Vec2.quarterCcw_x,
        Vec2.sub_y]
      ring
  · split
    · simp
    · simp only [Option.getD_some, Vec2.add_y, Vec2.smul_y, Vec2.div_y, Vec2.quarterCcw_y,
        Vec2.sub_x]
      ring

/-- **The arc over three points**: its centre is equally far from all three, and the endpoints are
swapped unless the third lies less than half a clockwise turn behind the first. -/
theorem through?_eq_some_iff : through? p1 p2 p = some a ↔
    ∃ c, tolerance ≤ |(p - p1).cross (p2 - p)| ∧
      (p1 - c).normSq = (p - c).normSq ∧ (p - c).normSq = (p2 - c).normSq ∧
      a = if 0 < (p1 - c).cross (p - c) then around c p1 p2 else around c p2 p1 := by
  unfold through?
  simp only [add_half_eq_midpoint, Line.through_quarterCcw, Option.map_eq_some_iff,
    Line.intersect?_eq_some_iff, Line.contains_bisector_iff, and_assoc]
  refine exists_congr fun c => and_congr_right fun _ => and_congr_right fun _ =>
    and_congr_right fun _ => ?_
  split
  · exact eq_comm
  · exact eq_comm

/-- There is none exactly when the three points are nearly collinear. -/
theorem through?_eq_none_iff : through? p1 p2 p = none ↔
    |(p - p1).cross (p2 - p)| < tolerance := by
  unfold through?
  simp only [add_half_eq_midpoint, Line.through_quarterCcw, Option.map_eq_none_iff,
    Line.intersect?_eq_none_iff]
  rfl

/-- **Its centre is the only point that is equally far from all three.** -/
theorem center_of_through? (h : through? p1 p2 p = some a)
    (hApart : machineEpsilon < distance p1 p2) (hFirst : (p1 - c).normSq = (p - c).normSq)
    (hSecond : (p - c).normSq = (p2 - c).normSq) : a.center = c := by
  have hDet : tolerance ≤ |(p - p1).cross (p2 - p)| := by
    obtain ⟨-, hDet, -⟩ := through?_eq_some_iff.mp h
    exact hDet
  have hAround := through?_eq_some_iff.mpr ⟨c, hDet, hFirst, hSecond, rfl⟩
  obtain rfl := Option.some.inj (h.symm.trans hAround)
  split
  · exact center_around hApart (hFirst.trans hSecond)
  · exact center_around (distance_comm p1 p2 ▸ hApart) (hFirst.trans hSecond).symm

/-- The circle of an arc is the one through three points. -/
structure Circumscribes (p1 p2 p : Vec2 ℝ) (a : Arc ℝ) : Prop where
  /-- The endpoints are the first two points, in either order. -/
  endpoints : (a.p1 = p1 ∧ a.p2 = p2) ∨ (a.p1 = p2 ∧ a.p2 = p1)
  first : distance a.center p1 = a.radius
  second : distance a.center p2 = a.radius
  third : distance a.center p = a.radius
  /-- No other point is equally far from all three. -/
  unique : ∀ c, distance c p1 = distance c p → distance c p = distance c p2 → c = a.center

theorem circumscribes_of_through? (h : through? p1 p2 p = some a)
    (hApart : machineEpsilon < distance p1 p2) : Circumscribes p1 p2 p a := by
  obtain ⟨c, -, hFirst, hSecond, hArc⟩ := through?_eq_some_iff.mp h
  have hCenter := center_of_through? h hApart hFirst hSecond
  rw [← distance_eq_iff] at hFirst hSecond
  have hEndpoints : (a.p1 = p1 ∧ a.p2 = p2) ∨ (a.p1 = p2 ∧ a.p2 = p1) := by
    rw [hArc]
    split
    · exact .inl ⟨rfl, rfl⟩
    · exact .inr ⟨rfl, rfl⟩
  have hRadius : distance c p = a.radius := by
    rw [radius, hCenter, distance_comm a.p1]
    rcases hEndpoints with ⟨hStart, -⟩ | ⟨hStart, -⟩
    · rw [hStart, hFirst]
    · rw [hStart, hSecond]
  refine ⟨hEndpoints, ?_, ?_, ?_, fun c' hFirst' hSecond' => ?_⟩
  · rw [hCenter, hFirst, hRadius]
  · rw [hCenter, ← hSecond, hRadius]
  · rw [hCenter, hRadius]
  · exact (center_of_through? h hApart (distance_eq_iff.mp hFirst')
      (distance_eq_iff.mp hSecond')).symm

/-- **The arc over three points lies on their circle.**  There is one unless the three points are
nearly collinear. -/
theorem through?_circumscribes (p1 p2 p : Vec2 ℝ) :
    (through? p1 p2 p = none ↔ |(p - p1).cross (p2 - p)| < tolerance) ∧
    (tolerance ≤ |(p - p1).cross (p2 - p)| → machineEpsilon < distance p1 p2 →
      ∃ a, through? p1 p2 p = some a ∧ Circumscribes p1 p2 p a) := by
  refine ⟨through?_eq_none_iff, fun hTurn hApart => ?_⟩
  cases hThrough : through? p1 p2 p with
  | none => exact absurd (through?_eq_none_iff.mp hThrough) hTurn.not_gt
  | some a => exact ⟨a, rfl, circumscribes_of_through? hThrough hApart⟩

/-- The circle over a flat triangle has its centre beyond the third side. -/
theorem through?_circumscribes_flat :
    tolerance ≤ |((⟨5, -2⟩ : Vec2 ℝ) - ⟨0, 0⟩).cross (⟨10, 0⟩ - ⟨5, -2⟩)| ∧
      machineEpsilon < distance (⟨0, 0⟩ : Vec2 ℝ) ⟨10, 0⟩ ∧
      ∃ a : Arc ℝ, through? ⟨0, 0⟩ ⟨10, 0⟩ ⟨5, -2⟩ = some a ∧
        a.center = ⟨5, 21 / 4⟩ ∧ a.radius = 29 / 4 := by
  have hTurn : tolerance ≤ |((⟨5, -2⟩ : Vec2 ℝ) - ⟨0, 0⟩).cross (⟨10, 0⟩ - ⟨5, -2⟩)| := by
    rw [Scalar.tolerance_real]
    norm_num [Vec2.cross_eq]
  have hApart : machineEpsilon < distance (⟨0, 0⟩ : Vec2 ℝ) ⟨10, 0⟩ := by
    rw [distance_eq, Vec2.norm_of_normSq_eq (k := 10) (by norm_num) (by norm_num [Vec2.normSq_eq]),
      Scalar.machineEpsilon_real]
    norm_num
  obtain ⟨a, hThrough, hCircle⟩ := (through?_circumscribes _ _ _).2 hTurn hApart
  have hCenter : ⟨5, 21 / 4⟩ = a.center :=
    hCircle.unique _ (distance_eq_iff.mpr (by norm_num [Vec2.normSq_eq]))
      (distance_eq_iff.mpr (by norm_num [Vec2.normSq_eq]))
  refine ⟨hTurn, hApart, a, hThrough, hCenter.symm, ?_⟩
  rw [← hCircle.third, ← hCenter]
  exact Vec2.norm_of_normSq_eq (by norm_num) (by norm_num [Vec2.normSq_eq])

/-! ## Points of the circle -/

/-- Going clockwise from the first endpoint one meets `q` before the second. -/
def Sweeps (a : Arc ℝ) (q : Vec2 ℝ) : Prop :=
  (a.p1 - a.center).clockwiseTo (q - a.center) ≤ a.sweep

/-- The point lies on the circle of the arc, at neither of its endpoints. -/
structure OnCircle (a : Arc ℝ) (q : Vec2 ℝ) : Prop where
  first : (a.p1 - a.center).norm = (q - a.center).norm
  second : (q - a.center).norm = (a.p2 - a.center).norm
  ne_first : a.p1 ≠ q
  ne_second : q ≠ a.p2

namespace OnCircle

variable {q : Vec2 ℝ}

theorem sub_ne_zero (h : a.OnCircle q) : q - a.center ≠ 0 := by
  intro hZero
  have hFirst : a.p1 - a.center = 0 := by
    rw [← Vec2.norm_eq_zero_iff, h.first, hZero, Vec2.norm_eq_zero_iff]
  exact h.ne_first (Vec2.sub_right_cancel (hFirst.trans hZero.symm))

theorem first_sub_ne_zero (h : a.OnCircle q) : a.p1 - a.center ≠ 0 :=
  Vec2.ne_zero_of_norm_eq h.first h.sub_ne_zero

theorem second_sub_ne_zero (h : a.OnCircle q) : a.p2 - a.center ≠ 0 :=
  Vec2.ne_zero_of_norm_eq h.second.symm h.sub_ne_zero

theorem sub_ne_first (h : a.OnCircle q) : a.p1 - a.center ≠ q - a.center :=
  fun hEq => h.ne_first (Vec2.sub_right_cancel hEq)

theorem sub_ne_second (h : a.OnCircle q) : q - a.center ≠ a.p2 - a.center :=
  fun hEq => h.ne_second (Vec2.sub_right_cancel hEq)

theorem distance_eq_radius (h : a.OnCircle q) : distance q a.center = a.radius := by
  rw [radius, distance_comm, distance_comm a.p1]
  exact h.first.symm

/-- The two angles to a point of the arc make up its sweep. -/
theorem add_eq_iff (h : a.OnCircle q) :
    (a.p1 - a.center).clockwiseTo (q - a.center) + (q - a.center).clockwiseTo (a.p2 - a.center) =
      (a.p1 - a.center).clockwiseTo (a.p2 - a.center) ↔ 0 < (q - a.p1).cross (a.p2 - q) := by
  rw [Vec2.add_clockwiseTo_eq_iff h.first h.second h.sub_ne_zero h.sub_ne_first h.sub_ne_second,
    Vec2.sub_sub_sub, Vec2.sub_sub_sub]

/-- **A point of the circle lies on the arc when the three points turn clockwise.** -/
theorem sweeps_iff (h : a.OnCircle q) : a.Sweeps q ↔ 0 < (q - a.p1).cross (a.p2 - q) := by
  rw [← h.add_eq_iff]
  exact Vec2.clockwiseTo_le_iff h.first_sub_ne_zero h.sub_ne_zero h.second_sub_ne_zero

/-- **The arc is no distance away from its own points, and some from the others of its circle.** -/
theorem distanceTo_eq_zero_iff (h : a.OnCircle q) : a.distanceTo q = 0 ↔ a.Sweeps q := by
  have hRadius : a.radius = (q - a.center).norm := by
    rw [← h.distance_eq_radius, distance_comm]
    rfl
  rw [h.sweeps_iff, ← h.add_eq_iff,
    ← Vec2.near_add_clockwiseTo_iff h.first_sub_ne_zero h.sub_ne_zero h.second_sub_ne_zero]
  unfold distanceTo
  dsimp only
  split
  · next hNear =>
    rw [hRadius, sub_self, Scalar.abs_real, abs_zero]
    exact iff_of_true rfl hNear
  · next hFar =>
    refine iff_of_false (ne_of_gt ?_) hFar
    rw [Scalar.smaller_real, lt_min_iff]
    exact ⟨distance_pos h.ne_first.symm, distance_pos h.ne_second⟩

/-- A point of the circle is one of the complementary arc's circle. -/
theorem inverted (h : a.OnCircle q) : a.inverted.OnCircle q where
  first := by
    rw [center_inverted]
    exact h.second.symm
  second := by
    rw [center_inverted]
    exact h.first.symm
  ne_first := h.ne_second.symm
  ne_second := h.ne_first.symm

end OnCircle

/-! ## The third point -/

/-- Where the third point stands to an arc over three points. -/
structure ThirdPoint (p1 p2 p : Vec2 ℝ) (a : Arc ℝ) : Prop where
  /-- The endpoints are the first two points, in either order. -/
  endpoints : (a.p1 = p1 ∧ a.p2 = p2) ∨ (a.p1 = p2 ∧ a.p2 = p1)
  /-- The third point lies on the circle. -/
  distance_center : distance p a.center = a.radius
  /-- It is met before the second endpoint when the three turn clockwise. -/
  sweeps_iff_cross : a.Sweeps p ↔ 0 < (p - a.p1).cross (a.p2 - p)
  /-- The distance to the arc tells the same. -/
  sweeps_iff_distanceTo : a.Sweeps p ↔ a.distanceTo p = 0
  /-- **The arc passes through it when the turn from `p1` to `p` about the centre is less than half
  a turn and the three points turn clockwise, or neither.** -/
  sweeps_iff : a.Sweeps p ↔
    (0 < (p1 - a.center).cross (p - a.center) ↔ 0 < (p - p1).cross (p2 - p))
  /-- A third point that is missed lies on the complementary arc. -/
  inverted : ¬ a.Sweeps p → a.inverted.distanceTo p = 0

theorem cross_sub_sub_swap (p q r : Vec2 ℝ) :
    (q - r).cross (p - q) = -(q - p).cross (r - q) := by
  simp only [Vec2.cross_eq, Vec2.sub_x, Vec2.sub_y]
  ring

theorem onCircle_around (hApart : machineEpsilon < distance p1 p2)
    (hFirst : (p1 - c).normSq = (p - c).normSq) (hSecond : (p - c).normSq = (p2 - c).normSq)
    (hCross : (p - p1).cross (p2 - p) ≠ 0) : (around c p1 p2).OnCircle p where
  first := by
    rw [center_around hApart (hFirst.trans hSecond), Vec2.norm_eq, Vec2.norm_eq, ← hFirst]
    rfl
  second := by
    rw [center_around hApart (hFirst.trans hSecond), Vec2.norm_eq, Vec2.norm_eq, hSecond]
    rfl
  ne_first := by
    rintro rfl
    refine hCross ?_
    simp only [around, Vec2.cross_eq, Vec2.sub_x, Vec2.sub_y]
    ring
  ne_second := by
    rintro rfl
    refine hCross ?_
    simp only [Vec2.cross_eq, Vec2.sub_x, Vec2.sub_y]
    ring

/-- What holds of the third point once it is known to lie on the circle. -/
theorem OnCircle.thirdPoint (h : a.OnCircle p)
    (hEndpoints : (a.p1 = p1 ∧ a.p2 = p2) ∨ (a.p1 = p2 ∧ a.p2 = p1))
    (hCross : (p - a.p1).cross (a.p2 - p) ≠ 0)
    (hAgree : 0 < (p - a.p1).cross (a.p2 - p) ↔
      (0 < (p1 - a.center).cross (p - a.center) ↔ 0 < (p - p1).cross (p2 - p))) :
    ThirdPoint p1 p2 p a where
  endpoints := hEndpoints
  distance_center := h.distance_eq_radius
  sweeps_iff_cross := h.sweeps_iff
  sweeps_iff_distanceTo := h.distanceTo_eq_zero_iff.symm
  sweeps_iff := h.sweeps_iff.trans hAgree
  inverted hMissed := by
    rw [h.inverted.distanceTo_eq_zero_iff, h.inverted.sweeps_iff]
    rw [h.sweeps_iff] at hMissed
    calc 0 < -(p - a.p1).cross (a.p2 - p) :=
          neg_pos.mpr (lt_of_le_of_ne (not_lt.mp hMissed) hCross)
      _ = (p - a.inverted.p1).cross (a.inverted.p2 - p) := (cross_sub_sub_swap _ _ _).symm

/-- **Which arc is laid over three points.** -/
theorem through?_thirdPoint (h : through? p1 p2 p = some a)
    (hApart : machineEpsilon < distance p1 p2) : ThirdPoint p1 p2 p a := by
  obtain ⟨c, hDet, hFirst, hSecond, rfl⟩ := through?_eq_some_iff.mp h
  have hCross : (p - p1).cross (p2 - p) ≠ 0 := Scalar.ne_zero_of_tolerance_le hDet
  have hCross' : (p - p2).cross (p1 - p) ≠ 0 := by
    rw [cross_sub_sub_swap]
    exact neg_ne_zero.mpr hCross
  split
  · next hTurn =>
    refine (onCircle_around hApart hFirst hSecond hCross).thirdPoint (.inl ⟨rfl, rfl⟩) hCross ?_
    rw [center_around hApart (hFirst.trans hSecond)]
    exact (iff_true_left hTurn).symm
  · next hTurn =>
    -- with the endpoints swapped the three points turn the other way
    have hApart' : machineEpsilon < distance p2 p1 := distance_comm p1 p2 ▸ hApart
    refine (onCircle_around hApart' hSecond.symm hFirst.symm hCross').thirdPoint
      (.inr ⟨rfl, rfl⟩) hCross' ?_
    rw [center_around hApart' (hFirst.trans hSecond).symm, iff_false_left hTurn, not_lt]
    calc 0 < (p - p2).cross (p1 - p)
        ↔ (p - p1).cross (p2 - p) < 0 := by rw [cross_sub_sub_swap, neg_pos]
      _ ↔ (p - p1).cross (p2 - p) ≤ 0 := ⟨le_of_lt, fun hLe => lt_of_le_of_ne hLe hCross⟩

/-- A length that is far from zero. -/
theorem machineEpsilon_lt_distance (h : 1 ≤ (p2 - p1).normSq) :
    machineEpsilon < distance p1 p2 := by
  rw [distance_eq, Vec2.norm_eq, Scalar.machineEpsilon_real]
  calc (1 / 4503599627370496 : ℝ) < 1 := by norm_num
    _ ≤ √(p2 - p1).normSq := Real.one_le_sqrt.mpr h

theorem through?_thirdPoint_upperHalf :
    through? ⟨-1, 0⟩ ⟨1, 0⟩ ⟨0, -1⟩ = some (around 0 ⟨-1, 0⟩ ⟨1, 0⟩) ∧
      machineEpsilon < distance (⟨-1, 0⟩ : Vec2 ℝ) ⟨1, 0⟩ ∧
      ThirdPoint ⟨-1, 0⟩ ⟨1, 0⟩ ⟨0, -1⟩ (around 0 ⟨-1, 0⟩ ⟨1, 0⟩) := by
  have hThrough : through? ⟨-1, 0⟩ ⟨1, 0⟩ ⟨0, -1⟩ = some (around 0 ⟨-1, 0⟩ ⟨1, 0⟩) := by
    refine through?_eq_some_iff.mpr ⟨0, ?_, ?_, ?_, (if_pos ?_).symm⟩
    · rw [Scalar.tolerance_real]
      norm_num [Vec2.cross_eq]
    · norm_num [Vec2.normSq_eq]
    · norm_num [Vec2.normSq_eq]
    · norm_num [Vec2.cross_eq]
  have hApart : machineEpsilon < distance (⟨-1, 0⟩ : Vec2 ℝ) ⟨1, 0⟩ :=
    machineEpsilon_lt_distance (by norm_num [Vec2.normSq_eq])
  exact ⟨hThrough, hApart, through?_thirdPoint hThrough hApart⟩

/-- **The arc over three points can miss the third**: clockwise, the second point lies before the
third, and both within half a turn of the first. -/
theorem through?_misses : ∃ a : Arc ℝ, through? ⟨5, 0⟩ ⟨4, 3⟩ ⟨0, 5⟩ = some a ∧
    machineEpsilon < distance (⟨5, 0⟩ : Vec2 ℝ) ⟨4, 3⟩ ∧
    ¬ a.Sweeps ⟨0, 5⟩ ∧ a.distanceTo ⟨0, 5⟩ ≠ 0 := by
  have hApart : machineEpsilon < distance (⟨5, 0⟩ : Vec2 ℝ) ⟨4, 3⟩ :=
    machineEpsilon_lt_distance (by norm_num [Vec2.normSq_eq])
  have hFirst : ((⟨5, 0⟩ : Vec2 ℝ) - 0).normSq = ((⟨0, 5⟩ : Vec2 ℝ) - 0).normSq := by
    norm_num [Vec2.normSq_eq]
  have hSecond : ((⟨0, 5⟩ : Vec2 ℝ) - 0).normSq = ((⟨4, 3⟩ : Vec2 ℝ) - 0).normSq := by
    norm_num [Vec2.normSq_eq]
  have hCross : ((⟨0, 5⟩ : Vec2 ℝ) - ⟨5, 0⟩).cross (⟨4, 3⟩ - ⟨0, 5⟩) = -10 := by
    norm_num [Vec2.cross_eq]
  have hCircle : (around 0 ⟨5, 0⟩ ⟨4, 3⟩).OnCircle ⟨0, 5⟩ :=
    onCircle_around hApart hFirst hSecond (by norm_num [hCross])
  have hMissed : ¬ (around 0 ⟨5, 0⟩ ⟨4, 3⟩).Sweeps ⟨0, 5⟩ := by
    rw [hCircle.sweeps_iff]
    exact not_lt.mpr (le_of_eq_of_le hCross (by norm_num))
  refine ⟨around 0 ⟨5, 0⟩ ⟨4, 3⟩, ?_, hApart, hMissed, fun hZero =>
    hMissed (hCircle.distanceTo_eq_zero_iff.mp hZero)⟩
  refine through?_eq_some_iff.mpr ⟨0, ?_, hFirst, hSecond, (if_pos ?_).symm⟩
  · rw [hCross, Scalar.tolerance_real]
    norm_num
  · norm_num [Vec2.cross_eq]

end Arc

end PlaneSketch
