import Mathlib.Order.Bounds.Basic
import PlaneSketch.Proofs.Plane.Complement

/-!
# The distance from an arc

Whether a point lies in the sector of an arc is decided by adding up two folded angles.  The sum is
the sweep in the sector and a full turn more outside of it, so the tolerance of the comparison never
matters.  In the sector the nearest point of the circle is on the arc.  Outside of it the way around
to a point of the arc leads over one of the endpoints.

* `Arc.carrier`: the points of the circle that the clockwise sweep passes over.
* `Arc.near_add_clockwiseTo_iff_sweeps`: **the test of the sector is exact.**
* `Arc.toward`, `Arc.distance_toward`: the nearest point of the whole circle.
* `Arc.min_distance_le`: outside of the sector no point of the arc is nearer than both endpoints.
* `Arc.isLeast_distanceTo`: **the distance from an arc is the least distance from its points**, of
  minor and of major arcs and also from the centre.
-/

namespace PlaneSketch

open Real (pi)

/-- Within a full turn the cosine is greatest at one of the ends. -/
theorem cos_le_max {a x b : ℝ} (hNonneg : 0 ≤ a) (hLower : a ≤ x) (hUpper : x ≤ b)
    (hTurn : b ≤ 2 * pi) : Real.cos x ≤ max (Real.cos a) (Real.cos b) := by
  rcases le_total x pi with hx | hx
  · exact le_max_of_le_left (Real.cos_le_cos_of_nonneg_of_le_pi hNonneg hx hLower)
  · refine le_max_of_le_right ?_
    rw [← Real.cos_two_pi_sub x, ← Real.cos_two_pi_sub b]
    exact Real.cos_le_cos_of_nonneg_of_le_pi (by linarith) (by linarith) (by linarith)

/-- **Of vectors met in the order `u`, `v`, `w` and `q`, the middle one is no nearer in direction to
`q` than both ends.** -/
theorem Vec2.dot_le_max {u v w q : Vec2 ℝ} (huv : u.norm = v.norm) (hvw : v.norm = w.norm)
    (hu : u ≠ 0) (h : u.clockwiseTo v ≤ u.clockwiseTo w)
    (h' : u.clockwiseTo w ≤ u.clockwiseTo q) : v.dot q ≤ max (u.dot q) (w.dot q) := by
  have hFirst := isTurn_clockwiseTo u v
  have hLast := isTurn_clockwiseTo u q
  -- the angles from `w`, from `v` and from `u` on to `q`, in this order
  have hCos := cos_le_max (a := u.clockwiseTo q - u.clockwiseTo w)
    (x := u.clockwiseTo q - u.clockwiseTo v) (b := u.clockwiseTo q) (by linarith) (by linarith)
    (by linarith [hFirst.nonneg]) hLast.lt.le
  rw [dot_eq_cos_sub hu v q, dot_eq_cos_sub hu u q, dot_eq_cos_sub hu w q, clockwiseTo_self,
    sub_zero, huv, ← hvw, max_comm,
    ← mul_max_of_nonneg _ _ (mul_nonneg v.norm_nonneg q.norm_nonneg)]
  exact mul_le_mul_of_nonneg_left hCos (mul_nonneg v.norm_nonneg q.norm_nonneg)

/-- Of two points of a circle the nearer one lies further in the direction of `q`. -/
theorem distance_le_iff_dot {c p m q : Vec2 ℝ} (h : (p - c).norm = (m - c).norm) :
    distance q p ≤ distance q m ↔ (m - c).dot (q - c) ≤ (p - c).dot (q - c) := by
  have hNormSq : (p - c).normSq = (m - c).normSq := by
    rw [← Vec2.norm_mul_self, h, Vec2.norm_mul_self]
  rw [distance_le_iff, ← Vec2.sub_sub_sub p q c, ← Vec2.sub_sub_sub m q c,
    Vec2.normSq_sub (p - c), Vec2.normSq_sub (m - c), hNormSq]
  constructor
  · intro hLe
    linarith
  · intro hLe
    linarith

namespace Arc

variable {a : Arc ℝ} {m q : Vec2 ℝ}

/-! ## The points of an arc -/

/-- The points of the arc: of its circle, those that the clockwise sweep passes over. -/
def carrier (a : Arc ℝ) : Set (Vec2 ℝ) := {m | distance a.center m = a.radius ∧ a.Sweeps m}

theorem first_mem_carrier (a : Arc ℝ) : a.p1 ∈ a.carrier := by
  refine ⟨a.isRound.first, ?_⟩
  rw [Sweeps, Vec2.clockwiseTo_self]
  exact (Vec2.isTurn_clockwiseTo _ _).nonneg

theorem second_mem_carrier (a : Arc ℝ) : a.p2 ∈ a.carrier := ⟨a.isRound.second, le_refl a.sweep⟩

theorem radius_nonneg (a : Arc ℝ) : 0 ≤ a.radius := Vec2.norm_nonneg _

/-- A collapsed arc passes over everything. -/
theorem sweeps_of_eq (h : a.p1 = a.p2) (m : Vec2 ℝ) : a.Sweeps m := by
  obtain ⟨hFirst, hSecond⟩ := sub_center_of_eq h
  rw [Sweeps, sweep, hFirst, hSecond, Vec2.clockwiseTo_zero_left, Vec2.clockwiseTo_zero_left]

/-- **The test of the sector is exact**: the sum of the angles is the sweep, or far from it. -/
theorem near_add_clockwiseTo_iff_sweeps (hq : q - a.center ≠ 0) :
    Scalar.near ((a.p1 - a.center).clockwiseTo (q - a.center) +
      (q - a.center).clockwiseTo (a.p2 - a.center))
      ((a.p1 - a.center).clockwiseTo (a.p2 - a.center)) = true ↔ a.Sweeps q := by
  by_cases hEq : a.p1 = a.p2
  · obtain ⟨hFirst, hSecond⟩ := sub_center_of_eq hEq
    refine iff_of_true ?_ (sweeps_of_eq hEq q)
    rw [hFirst, hSecond, Vec2.clockwiseTo_zero_left, Vec2.clockwiseTo_zero_left,
      Vec2.clockwiseTo_zero_right, Scalar.near, decide_eq_true_eq, Scalar.abs_real,
      Scalar.tolerance_real]
    norm_num
  · have hFirst := first_sub_center_ne_zero hEq
    have hSecond := second_sub_center_ne_zero hEq
    rw [Vec2.near_add_clockwiseTo_iff hFirst hq hSecond]
    exact (Vec2.clockwiseTo_le_iff hFirst hq hSecond).symm

theorem distanceTo_of_sweeps (hq : q - a.center ≠ 0) (h : a.Sweeps q) :
    a.distanceTo q = |a.radius - distance a.center q| := by
  unfold distanceTo
  dsimp only
  rw [if_pos ((near_add_clockwiseTo_iff_sweeps hq).mpr h)]
  rfl

theorem distanceTo_of_not_sweeps (hq : q - a.center ≠ 0) (h : ¬ a.Sweeps q) :
    a.distanceTo q = min (distance q a.p1) (distance q a.p2) := by
  unfold distanceTo
  dsimp only
  rw [if_neg fun hNear => h ((near_add_clockwiseTo_iff_sweeps hq).mp hNear), Scalar.smaller_real]

/-- The centre is as far away as the endpoints, whether it counts to the sector or not. -/
theorem distanceTo_center (a : Arc ℝ) : a.distanceTo a.center = a.radius := by
  unfold distanceTo
  dsimp only
  split
  · rw [Scalar.abs_real, Vec2.sub_same, Vec2.norm_eq_zero_iff.mpr rfl, sub_zero,
      abs_of_nonneg a.radius_nonneg]
  · rw [Scalar.smaller_real, a.isRound.first, a.isRound.second, min_self]

/-! ## In the sector -/

/-- The point of the circle in the direction of `q`. -/
noncomputable def toward (a : Arc ℝ) (q : Vec2 ℝ) : Vec2 ℝ :=
  a.center + (a.radius / (q - a.center).norm) • (q - a.center)

theorem toward_sub_center (a : Arc ℝ) (q : Vec2 ℝ) :
    a.toward q - a.center = (a.radius / (q - a.center).norm) • (q - a.center) :=
  Vec2.add_sub_same _ _

theorem distance_center_toward (hq : q - a.center ≠ 0) :
    distance a.center (a.toward q) = a.radius := by
  have hPos := Vec2.norm_pos_iff.mpr hq
  rw [distance_eq, toward_sub_center, Vec2.norm_smul,
    abs_of_nonneg (div_nonneg a.radius_nonneg hPos.le), div_mul_cancel₀ _ hPos.ne']

theorem distance_toward (hq : q - a.center ≠ 0) :
    distance q (a.toward q) = |a.radius - distance a.center q| := by
  have hPos := Vec2.norm_pos_iff.mpr hq
  have hOffset : a.toward q - q =
      (a.radius / (q - a.center).norm - 1) • (q - a.center) := by
    refine Vec2.ext ?_ ?_
    · simp only [toward, Vec2.sub_x, Vec2.add_x, Vec2.smul_x]
      ring
    · simp only [toward, Vec2.sub_y, Vec2.add_y, Vec2.smul_y]
      ring
  rw [distance_eq, hOffset, Vec2.norm_smul, distance_eq, ← abs_of_pos hPos, ← abs_mul, sub_mul,
    one_mul, abs_of_pos hPos, div_mul_cancel₀ _ hPos.ne']

theorem sweeps_toward (hq : q - a.center ≠ 0) (h : a.Sweeps q) : a.Sweeps (a.toward q) := by
  by_cases hEq : a.p1 = a.p2
  · exact sweeps_of_eq hEq _
  · have hRadius : 0 < a.radius := by
      rw [← norm_first_sub_center]
      exact Vec2.norm_pos_iff.mpr (first_sub_center_ne_zero hEq)
    rw [Sweeps, toward_sub_center,
      Vec2.clockwiseTo_smul (div_pos hRadius (Vec2.norm_pos_iff.mpr hq))]
    exact h

/-! ## Outside of the sector -/

/-- **Outside of the sector no point of the arc is nearer than both endpoints.** -/
theorem min_distance_le (h : ¬ a.Sweeps q) (hm : m ∈ a.carrier) :
    min (distance q a.p1) (distance q a.p2) ≤ distance q m := by
  have hNe : a.p1 ≠ a.p2 := fun hEq => h (sweeps_of_eq hEq q)
  have hFirst : (a.p1 - a.center).norm = (m - a.center).norm := by
    rw [norm_first_sub_center, ← hm.1, distance_eq]
  have hSecond : (a.p2 - a.center).norm = (m - a.center).norm := by
    rw [← norm_sub_center_eq, hFirst]
  rw [min_le_iff, distance_le_iff_dot hFirst, distance_le_iff_dot hSecond, ← le_max_iff]
  exact Vec2.dot_le_max hFirst hSecond.symm (first_sub_center_ne_zero hNe) hm.2 (not_le.mp h).le

/-! ## The least distance -/

theorem isLeast_distanceTo_center (a : Arc ℝ) :
    IsLeast (distance a.center '' a.carrier) (a.distanceTo a.center) := by
  rw [distanceTo_center]
  refine ⟨⟨a.p1, a.first_mem_carrier, a.isRound.first⟩, ?_⟩
  rintro _ ⟨m, hm, rfl⟩
  exact hm.1.ge

theorem isLeast_distanceTo_of_sweeps (hq : q - a.center ≠ 0) (h : a.Sweeps q) :
    IsLeast (distance q '' a.carrier) (a.distanceTo q) := by
  rw [distanceTo_of_sweeps hq h]
  refine ⟨⟨a.toward q, ⟨distance_center_toward hq, sweeps_toward hq h⟩, distance_toward hq⟩, ?_⟩
  rintro _ ⟨m, hm, rfl⟩
  rw [← hm.1]
  exact abs_distance_sub_distance_le m q a.center

theorem isLeast_distanceTo_of_not_sweeps (hq : q - a.center ≠ 0) (h : ¬ a.Sweeps q) :
    IsLeast (distance q '' a.carrier) (a.distanceTo q) := by
  rw [distanceTo_of_not_sweeps hq h]
  refine ⟨?_, ?_⟩
  · rcases min_choice (distance q a.p1) (distance q a.p2) with hMin | hMin
    · exact ⟨a.p1, a.first_mem_carrier, hMin.symm⟩
    · exact ⟨a.p2, a.second_mem_carrier, hMin.symm⟩
  · rintro _ ⟨m, hm, rfl⟩
    exact min_distance_le h hm

/-- The least distance from some points vanishes at these points only. -/
theorem eq_zero_iff_of_isLeast {points : Set (Vec2 ℝ)} {r : ℝ}
    (h : IsLeast (distance q '' points) r) : r = 0 ↔ q ∈ points := by
  constructor
  · rintro rfl
    obtain ⟨m, hm, hZero⟩ := h.1
    rwa [distance_eq_zero_iff.mp hZero]
  · intro hq
    obtain ⟨m, -, hm⟩ := h.1
    refine le_antisymm (h.2 ⟨q, hq, distance_self q⟩) ?_
    rw [← hm]
    exact Vec2.norm_nonneg _

/-- **The distance from an arc is the least distance from its points**, and zero at these only. -/
theorem isLeast_distanceTo (a : Arc ℝ) (q : Vec2 ℝ) :
    IsLeast (distance q '' a.carrier) (a.distanceTo q) ∧
      (a.distanceTo q = 0 ↔ q ∈ a.carrier) := by
  have hLeast : IsLeast (distance q '' a.carrier) (a.distanceTo q) := by
    by_cases hCenter : q = a.center
    · rw [hCenter]
      exact a.isLeast_distanceTo_center
    · have hq : q - a.center ≠ 0 := Vec2.sub_ne_zero fun hEq => hCenter hEq.symm
      by_cases hSweeps : a.Sweeps q
      · exact isLeast_distanceTo_of_sweeps hq hSweeps
      · exact isLeast_distanceTo_of_not_sweeps hq hSweeps
  exact ⟨hLeast, eq_zero_iff_of_isLeast hLeast⟩

end Arc

end PlaneSketch
