import PlaneSketch.Proofs.Plane.Circumcircle
import PlaneSketch.Proofs.Plane.Motion

/-!
# An arc and its complement

The centre of an arc is computed from the offset along a signed normal, the sweep from a folded
angle and the middle by a turn.  Whichever way the chord points and whatever the sign of the offset,
these agree on one circle, and the inverted arc covers the rest of it.

* `Arc.IsRound`, `Arc.isRound`: **the centre is equally far from both endpoints and from the
  middle**, which is equally far from both endpoints itself.
* `Arc.radius_mul_self`: the radius by the chord and the offset.
* `Arc.sweep_inverted`, `Arc.OnCircle.sweeps_inverted_iff`: the inverted arc sweeps over the rest of
  a full turn, and over the points of the circle that the arc leaves out.
* `Arc.IsComplement`, `Arc.round_and_complementary`: **an arc and its inverse make up one circle.**
-/

namespace PlaneSketch

open Scalar (machineEpsilon)
open Real (pi)

namespace Arc

variable {a : Arc ℝ} {q : Vec2 ℝ}

/-! ## The circle -/

/-- The normal is upright on the chord, also where it vanishes. -/
theorem dot_normal (a : Arc ℝ) : a.normal.dot (a.p2 - a.p1) = 0 := by
  rw [normal, Vec2.unit?]
  split
  · rw [Option.getD_none, Vec2.dot_eq, Vec2.zero_x, Vec2.zero_y, zero_mul, zero_mul, add_zero]
  · rw [Option.getD_some]
    simp only [Vec2.dot_eq, Vec2.div_x, Vec2.div_y, Vec2.quarterCcw_x, Vec2.quarterCcw_y]
    ring

theorem normSq_normal (hApart : machineEpsilon < distance a.p1 a.p2) : a.normal.normSq = 1 := by
  have hNe : (a.p2 - a.p1).norm * (a.p2 - a.p1).norm ≠ 0 :=
    mul_self_ne_zero.mpr (Vec2.norm_pos_iff.mpr (Vec2.ne_zero_of_machineEpsilon_lt hApart)).ne'
  rw [normal_eq hApart, Vec2.normSq_eq, Vec2.div_x, Vec2.div_y, div_mul_div_comm, div_mul_div_comm,
    ← add_div, div_eq_one_iff_eq hNe, Vec2.norm_mul_self, Vec2.normSq_eq, Vec2.quarterCcw_x,
    Vec2.quarterCcw_y]
  ring

/-- **The centre is equally far from both endpoints.** -/
theorem norm_sub_center_eq (a : Arc ℝ) : (a.p1 - a.center).norm = (a.p2 - a.center).norm := by
  have hOffset : a.center - midpoint a.p1 a.p2 = a.d • a.normal := Vec2.add_sub_same _ _
  have hUpright : (a.center - midpoint a.p1 a.p2).dot (a.p2 - a.p1) = 0 := by
    have hNormal := a.dot_normal
    rw [hOffset]
    simp only [Vec2.dot_eq, Vec2.smul_x, Vec2.smul_y] at hNormal ⊢
    linear_combination a.d * hNormal
  rw [Vec2.norm_eq, Vec2.norm_eq, (dot_sub_midpoint_eq_zero_iff _ _ _).mp hUpright]

theorem norm_first_sub_center (a : Arc ℝ) : (a.p1 - a.center).norm = a.radius :=
  Vec2.norm_sub_comm _ _

theorem norm_second_sub_center (a : Arc ℝ) : (a.p2 - a.center).norm = a.radius := by
  rw [← norm_sub_center_eq, norm_first_sub_center]

/-- **The radius is the hypotenuse over half the chord and the offset.** -/
theorem radius_mul_self (hApart : machineEpsilon < distance a.p1 a.p2) :
    a.radius * a.radius = (a.p2 - a.p1).normSq / 4 + a.d * a.d := by
  have hUnit := normSq_normal hApart
  have hUpright := a.dot_normal
  have hx : a.center.x = (a.p1.x + a.p2.x) / 2 + a.d * a.normal.x := by
    rw [← midpoint_x]
    rfl
  have hy : a.center.y = (a.p1.y + a.p2.y) / 2 + a.d * a.normal.y := by
    rw [← midpoint_y]
    rfl
  rw [← norm_first_sub_center, Vec2.norm_mul_self]
  simp only [Vec2.normSq_eq, Vec2.dot_eq, Vec2.sub_x, Vec2.sub_y, hx, hy] at hUnit hUpright ⊢
  linear_combination a.d * a.d * hUnit + a.d * hUpright

/-- A collapsed arc is a point. -/
theorem center_of_eq (h : a.p1 = a.p2) : a.center = a.p1 := by
  have hNorm : (a.p2 - a.p1).norm ≤ machineEpsilon := by
    rw [← distance_eq, ← h, distance_self, Scalar.machineEpsilon_real]
    norm_num
  have hNormal : a.normal = 0 := by
    rw [normal, Vec2.unit?, Vec2.norm_quarterCcw, if_pos hNorm, Option.getD_none]
  rw [center, chordMidpoint, hNormal, ← h]
  refine Vec2.ext ?_ ?_
  · rw [Vec2.add_x, Vec2.smul_x, Vec2.zero_x, midpoint_x]
    ring
  · rw [Vec2.add_y, Vec2.smul_y, Vec2.zero_y, midpoint_y]
    ring

/-- Both endpoints of a collapsed arc are its centre. -/
theorem sub_center_of_eq (h : a.p1 = a.p2) : a.p1 - a.center = 0 ∧ a.p2 - a.center = 0 := by
  rw [← h, center_of_eq h]
  exact ⟨Vec2.sub_same _, Vec2.sub_same _⟩

theorem second_sub_center_ne_zero (h : a.p1 ≠ a.p2) : a.p2 - a.center ≠ 0 := by
  intro hSecond
  have hFirst : a.p1 - a.center = 0 := by
    rw [← Vec2.norm_eq_zero_iff, norm_sub_center_eq, hSecond, Vec2.norm_eq_zero_iff]
  exact h (Vec2.sub_right_cancel (hFirst.trans hSecond.symm))

theorem first_sub_center_ne_zero (h : a.p1 ≠ a.p2) : a.p1 - a.center ≠ 0 :=
  Vec2.ne_zero_of_norm_eq a.norm_sub_center_eq (second_sub_center_ne_zero h)

theorem ne_of_apart (hApart : machineEpsilon < distance a.p1 a.p2) : a.p1 ≠ a.p2 := by
  intro hEq
  refine Vec2.ne_zero_of_machineEpsilon_lt hApart ?_
  rw [hEq, Vec2.sub_same]

/-! ## The middle -/

theorem middle_sub_center (a : Arc ℝ) :
    a.middle - a.center = (a.p1 - a.center).rotate (a.sweep / 2) := by
  have hTwo : (2.0 : ℝ) = 2 := by norm_num
  rw [middle, hTwo, Vec2.add_sub_same]

/-- The second endpoint is half a sweep beyond the middle. -/
theorem rotate_middle (a : Arc ℝ) :
    (a.middle - a.center).rotate (a.sweep / 2) = a.p2 - a.center := by
  rw [middle_sub_center, Vec2.rotate_rotate, add_halves]
  exact Vec2.rotate_clockwiseTo a.norm_sub_center_eq

theorem distance_center_middle (a : Arc ℝ) : distance a.center a.middle = a.radius := by
  rw [distance_eq, middle_sub_center, Vec2.norm_rotate, norm_first_sub_center]

/-- The middle is the same turn away from both endpoints. -/
theorem distance_middle_eq (a : Arc ℝ) : distance a.middle a.p1 = distance a.middle a.p2 :=
  calc distance a.middle a.p1
      = ((a.p1 - a.center) - (a.middle - a.center)).norm := by rw [Vec2.sub_sub_sub, distance_eq]
    _ = ((a.p1 - a.center).rotate (a.sweep / 2) -
          (a.middle - a.center).rotate (a.sweep / 2)).norm := by
        rw [← Vec2.rotate_sub, Vec2.norm_rotate]
    _ = ((a.middle - a.center) - (a.p2 - a.center)).norm := by
        rw [← middle_sub_center, rotate_middle]
    _ = distance a.middle a.p2 := by rw [Vec2.sub_sub_sub, Vec2.norm_sub_comm, distance_eq]

/-- What makes the derived quantities of an arc those of one circle. -/
structure IsRound (a : Arc ℝ) : Prop where
  first : distance a.center a.p1 = a.radius
  second : distance a.center a.p2 = a.radius
  radius_mul_self : machineEpsilon < distance a.p1 a.p2 →
    a.radius * a.radius = (a.p2 - a.p1).normSq / 4 + a.d * a.d
  /-- The middle lies on the circle. -/
  middle : distance a.center a.middle = a.radius
  /-- It is equally far from both endpoints. -/
  halfway : distance a.middle a.p1 = distance a.middle a.p2

theorem isRound (a : Arc ℝ) : a.IsRound where
  first := a.norm_first_sub_center
  second := a.norm_second_sub_center
  radius_mul_self := radius_mul_self
  middle := a.distance_center_middle
  halfway := a.distance_middle_eq

/-! ## The rest of the circle -/

theorem inverted_inverted (a : Arc ℝ) : a.inverted.inverted = a :=
  congrArg (Arc.mk a.p1 a.p2) (neg_neg a.d)

theorem radius_inverted (a : Arc ℝ) : a.inverted.radius = a.radius := by
  rw [← norm_first_sub_center, center_inverted]
  exact a.norm_second_sub_center

/-- **The inverted arc sweeps over the rest of a full turn.** -/
theorem sweep_inverted (h : a.p1 ≠ a.p2) : a.inverted.sweep = 2 * pi - a.sweep := by
  rw [sweep, center_inverted]
  exact Vec2.clockwiseTo_swap a.norm_sub_center_eq (second_sub_center_ne_zero h)
    fun hEq => h (Vec2.sub_right_cancel hEq)

/-- Half a turn leads to the opposite point. -/
theorem midpoint_opposite {m n c : Vec2 ℝ} (h : n - c = (m - c).rotate pi) :
    midpoint m n = c := by
  have hx := congrArg Vec2.x h
  have hy := congrArg Vec2.y h
  simp only [Vec2.rotate_x, Vec2.rotate_y, Vec2.sub_x, Vec2.sub_y, Real.cos_pi, Real.sin_pi]
    at hx hy
  refine Vec2.ext ?_ ?_
  · rw [midpoint_x]
    linarith
  · rw [midpoint_y]
    linarith

/-- **The middle of the inverted arc is opposite to that of the arc.** -/
theorem midpoint_middle_inverted (a : Arc ℝ) : midpoint a.middle a.inverted.middle = a.center := by
  refine midpoint_opposite ?_
  have hInverted := a.inverted.middle_sub_center
  rw [center_inverted] at hInverted
  by_cases hEq : a.p1 = a.p2
  · obtain ⟨hFirst, hSecond⟩ := sub_center_of_eq hEq
    have hSecond : a.inverted.p1 - a.center = 0 := hSecond
    rw [hInverted, hSecond, middle_sub_center, hFirst, Vec2.rotate_zero, Vec2.rotate_zero,
      Vec2.rotate_zero]
  · -- half of the one sweep and half of the other are half a turn
    calc a.inverted.middle - a.center
        = (a.p2 - a.center).rotate (a.inverted.sweep / 2) := hInverted
      _ = (a.middle - a.center).rotate (a.sweep / 2 + (2 * pi - a.sweep) / 2) := by
          rw [sweep_inverted hEq, ← rotate_middle, Vec2.rotate_rotate]
      _ = (a.middle - a.center).rotate pi := by
          congr 1
          ring

/-- **The inverted arc sweeps over the points of the circle that the arc leaves out.** -/
theorem OnCircle.sweeps_inverted_iff (h : a.OnCircle q) : a.inverted.Sweeps q ↔ ¬ a.Sweeps q := by
  have hFirst := h.first_sub_ne_zero
  have hSecond := h.second_sub_ne_zero
  have hNe : a.p1 ≠ a.p2 := fun hEq => hFirst (sub_center_of_eq hEq).1
  have hInverted : a.inverted.Sweeps q ↔
      (a.p2 - a.center).clockwiseTo (q - a.center) ≤ a.inverted.sweep := by
    rw [Sweeps, center_inverted]
    rfl
  have hSweeps : a.Sweeps q ↔
      (a.p1 - a.center).clockwiseTo (q - a.center) + (q - a.center).clockwiseTo (a.p2 - a.center) =
        a.sweep := Vec2.clockwiseTo_le_iff hFirst h.sub_ne_zero hSecond
  have hAdd := Vec2.clockwiseTo_add hFirst h.sub_ne_zero hSecond
  change _ = a.sweep ∨ _ = a.sweep + 2 * pi at hAdd
  rw [hInverted, hSweeps, sweep_inverted hNe,
    Vec2.clockwiseTo_swap h.second hSecond h.sub_ne_second]
  constructor
  · intro hLe hSum
    linarith [Vec2.clockwiseTo_pos h.first h.sub_ne_first]
  · intro hNot
    have hSum := hAdd.resolve_left hNot
    linarith [(Vec2.isTurn_clockwiseTo (a.p1 - a.center) (q - a.center)).lt]

/-- How the arc over the rest of a circle relates to an arc. -/
structure IsComplement (b a : Arc ℝ) : Prop where
  first : b.p1 = a.p2
  second : b.p2 = a.p1
  center : b.center = a.center
  radius : b.radius = a.radius
  sweep : machineEpsilon < distance a.p1 a.p2 → b.sweep = 2 * pi - a.sweep
  /-- It passes over the points of the circle that the arc leaves out. -/
  sweeps_iff : ∀ q, a.OnCircle q → (b.Sweeps q ↔ ¬ a.Sweeps q)
  /-- The two middles are opposite to each other. -/
  middle : midpoint a.middle b.middle = a.center

/-- **Every arc is one of a circle, and the inverted arc covers the rest of it.** -/
theorem round_and_complementary (a : Arc ℝ) :
    a.IsRound ∧ a.inverted.inverted = a ∧ a.inverted.IsComplement a := by
  refine ⟨a.isRound, a.inverted_inverted, ?_⟩
  exact {
    first := rfl
    second := rfl
    center := a.center_inverted
    radius := a.radius_inverted
    sweep := fun hApart => sweep_inverted (ne_of_apart hApart)
    sweeps_iff := fun q hOn => hOn.sweeps_inverted_iff
    middle := a.midpoint_middle_inverted }

/-- An arc of three quarters of its circle. -/
noncomputable def major : Arc ℝ := ⟨⟨-1, 0⟩, ⟨1, 0⟩, 1⟩

theorem apart_major : machineEpsilon < distance major.p1 major.p2 :=
  machineEpsilon_lt_distance (by norm_num [Vec2.normSq_eq, major])

theorem center_major : major.center = ⟨0, -1⟩ := by
  have hChord : (major.p2 - major.p1).norm = 2 :=
    Vec2.norm_of_normSq_eq (by norm_num) (by norm_num [Vec2.normSq_eq, major])
  rw [center, chordMidpoint, normal_eq apart_major, hChord]
  refine Vec2.ext ?_ ?_
  · norm_num [major]
  · norm_num [major]

theorem onCircle_major : major.OnCircle ⟨1, -2⟩ where
  first := by
    rw [center_major, Vec2.norm_eq, Vec2.norm_eq]
    norm_num [Vec2.normSq_eq, major]
  second := by
    rw [center_major, Vec2.norm_eq, Vec2.norm_eq]
    norm_num [Vec2.normSq_eq, major]
  ne_first := by norm_num [major]
  ne_second := by norm_num [major]

theorem round_and_complementary_major :
    machineEpsilon < distance major.p1 major.p2 ∧ major.radius * major.radius = 2 ∧
      major.inverted.sweep = 2 * pi - major.sweep ∧ major.OnCircle ⟨1, -2⟩ ∧
      (major.inverted.Sweeps ⟨1, -2⟩ ↔ ¬ major.Sweeps ⟨1, -2⟩) := by
  obtain ⟨hRound, -, hComplement⟩ := round_and_complementary major
  refine ⟨apart_major, ?_, hComplement.sweep apart_major, onCircle_major,
    hComplement.sweeps_iff _ onCircle_major⟩
  rw [hRound.radius_mul_self apart_major]
  norm_num [Vec2.normSq_eq, major]

end Arc

end PlaneSketch
