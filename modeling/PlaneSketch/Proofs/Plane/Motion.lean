import Mathlib.Tactic.Ring
import PlaneSketch.Plane.Arc
import PlaneSketch.Proofs.Plane.Angle
import PlaneSketch.Proofs.Plane.Lines

/-!
# Rigid motions

A turn of the plane about the origin and a shift, and what they do to the figures: every derived
point moves along, and every length, angle product and distance stays.

* `Vec2.dot_rotate`, `Vec2.cross_rotate`, `Vec2.norm_rotate`: a turn keeps the products.
* `Vec2.rotate_clockwiseTo`: the turn by the clockwise angle to a vector of the same length.
* `Motion.apply_sub`: the displacement between two moved points is turned only.
* `Arc.center_moved`: **the centre of an arc moves along**, with the offset kept, also where the
  chord is too short to have a normal.
* `Line.distance?_apply`: the distance from a line stays, and so does whether there is one.
-/

namespace PlaneSketch

open Scalar (machineEpsilon)

/-! ## Turns -/

namespace Vec2

variable (v w : Vec2 ℝ) (θ : ℝ)

@[simp] theorem rotate_x : (v.rotate θ).x = Real.cos θ * v.x - Real.sin θ * v.y := rfl

@[simp] theorem rotate_y : (v.rotate θ).y = Real.sin θ * v.x + Real.cos θ * v.y := rfl

theorem rotate_zero : (0 : Vec2 ℝ).rotate θ = 0 :=
  ext (by simp) (by simp)

theorem rotate_add : (v + w).rotate θ = v.rotate θ + w.rotate θ := by
  refine ext ?_ ?_
  · simp only [rotate_x, add_x, add_y]
    ring
  · simp only [rotate_y, add_x, add_y]
    ring

theorem rotate_sub : (v - w).rotate θ = v.rotate θ - w.rotate θ := by
  refine ext ?_ ?_
  · simp only [rotate_x, sub_x, sub_y]
    ring
  · simp only [rotate_y, sub_x, sub_y]
    ring

theorem rotate_smul (k : ℝ) : (k • v).rotate θ = k • v.rotate θ := by
  refine ext ?_ ?_
  · simp only [rotate_x, smul_x, smul_y]
    ring
  · simp only [rotate_y, smul_x, smul_y]
    ring

theorem rotate_div (k : ℝ) : (v / k).rotate θ = v.rotate θ / k := by
  refine ext ?_ ?_
  · simp only [rotate_x, div_x, div_y]
    ring
  · simp only [rotate_y, div_x, div_y]
    ring

theorem rotate_quarterCcw : v.quarterCcw.rotate θ = (v.rotate θ).quarterCcw := by
  refine ext ?_ ?_
  · simp only [rotate_x, rotate_y, quarterCcw_x, quarterCcw_y]
    ring
  · simp only [rotate_x, rotate_y, quarterCcw_x, quarterCcw_y]
    ring

@[simp] theorem dot_rotate : (v.rotate θ).dot (w.rotate θ) = v.dot w := by
  simp only [dot_eq, rotate_x, rotate_y]
  linear_combination (v.x * w.x + v.y * w.y) * Real.cos_sq_add_sin_sq θ

@[simp] theorem cross_rotate : (v.rotate θ).cross (w.rotate θ) = v.cross w := by
  simp only [cross_eq, rotate_x, rotate_y]
  linear_combination (v.x * w.y - v.y * w.x) * Real.cos_sq_add_sin_sq θ

@[simp] theorem norm_rotate : (v.rotate θ).norm = v.norm :=
  congrArg Real.sqrt (dot_rotate v v θ)

theorem rotate_rotate (θ' : ℝ) : (v.rotate θ).rotate θ' = v.rotate (θ + θ') := by
  refine ext ?_ ?_
  · simp only [rotate_x, rotate_y, Real.cos_add, Real.sin_add]
    ring
  · simp only [rotate_x, rotate_y, Real.cos_add, Real.sin_add]
    ring

variable {v w} in
/-- **Turned by the clockwise angle to a vector of its length, a vector becomes that one.** -/
theorem rotate_clockwiseTo (h : v.norm = w.norm) : v.rotate (v.clockwiseTo w) = w := by
  by_cases hv : v = 0
  · rw [hv, rotate_zero, eq_comm, ← norm_eq_zero_iff, ← h, norm_eq_zero_iff]
    exact hv
  · have hTurn := isTurn_clockwiseTo v w
    have hDot := hTurn.dot
    have hCross := hTurn.cross
    have hNormSq := normSq_eq v
    rw [← h, norm_mul_self, dot_eq] at hDot
    rw [← h, norm_mul_self, cross_eq] at hCross
    have hNe : v.normSq ≠ 0 := fun hZero => hv (normSq_eq_zero_iff.mp hZero)
    refine ext (mul_left_cancel₀ hNe ?_) (mul_left_cancel₀ hNe ?_)
    · rw [rotate_x]
      linear_combination -v.x * hDot + v.y * hCross - w.x * hNormSq
    · rw [rotate_y]
      linear_combination -v.y * hDot - v.x * hCross - w.y * hNormSq

/-- A direction is turned, and there is none where there was none. -/
theorem unit?_rotate (threshold : ℝ) :
    (v.rotate θ).unit? threshold = (v.unit? threshold).map (·.rotate θ) := by
  rw [unit?, unit?, norm_rotate]
  split
  · rfl
  · rw [Option.map_some, rotate_div]

end Vec2

/-! ## Motions -/

/-- A rigid motion of the plane: a turn about the origin, clockwise as drawn, then a shift. -/
structure Motion where
  angle : ℝ
  shift : Vec2 ℝ

namespace Motion

variable (m : Motion) (p q r : Vec2 ℝ)

noncomputable def apply : Vec2 ℝ := p.rotate m.angle + m.shift

/-- The displacement between two points is turned, whatever the shift. -/
theorem apply_sub : m.apply p - m.apply q = (p - q).rotate m.angle := by
  rw [Vec2.rotate_sub]
  exact Vec2.ext (add_sub_add_right_eq_sub _ _ _) (add_sub_add_right_eq_sub _ _ _)

theorem apply_add (v : Vec2 ℝ) : m.apply (p + v) = m.apply p + v.rotate m.angle := by
  rw [apply, apply, Vec2.rotate_add]
  exact Vec2.ext (add_right_comm _ _ _) (add_right_comm _ _ _)

@[simp] theorem distance_apply : distance (m.apply p) (m.apply q) = distance p q := by
  rw [distance_eq, distance_eq, apply_sub, Vec2.norm_rotate]

theorem midpoint_apply : midpoint (m.apply p) (m.apply q) = m.apply (midpoint p q) := by
  refine Vec2.ext ?_ ?_
  · simp only [midpoint_x, midpoint_y, apply, Vec2.add_x, Vec2.rotate_x]
    ring
  · simp only [midpoint_x, midpoint_y, apply, Vec2.add_y, Vec2.rotate_y]
    ring

end Motion

/-! ## Figures that move -/

namespace Line

/-- **The distance from a line stays**, and so does whether there is one. -/
theorem distance?_apply (m : Motion) (p q r : Vec2 ℝ) :
    (through (m.apply p) (m.apply q)).distance? (m.apply r) = (through p q).distance? r := by
  rw [distance?_through, distance?_through, m.distance_apply, m.apply_sub, m.apply_sub,
    Vec2.cross_rotate]

end Line

namespace Segment

variable (m : Motion) (s : Segment ℝ)

noncomputable def moved : Segment ℝ := ⟨m.apply s.p1, m.apply s.p2⟩

theorem vector_moved : (s.moved m).vector = s.vector.rotate m.angle := m.apply_sub s.p2 s.p1

@[simp] theorem length_moved : (s.moved m).length = s.length := by
  rw [length, vector_moved, Vec2.norm_rotate]
  rfl

end Segment

namespace Arc

variable (m : Motion) (a : Arc ℝ)

/-- Both endpoints move; the offset stays. -/
noncomputable def moved : Arc ℝ := ⟨m.apply a.p1, m.apply a.p2, a.d⟩

/-- The normal of the chord is turned; a chord without a normal stays without. -/
theorem normal_moved : (a.moved m).normal = a.normal.rotate m.angle := by
  have hChord : (a.moved m).p2 - (a.moved m).p1 = (a.p2 - a.p1).rotate m.angle := m.apply_sub _ _
  rw [normal, hChord, ← Vec2.rotate_quarterCcw, Vec2.unit?_rotate, normal]
  cases (a.p2 - a.p1).quarterCcw.unit? machineEpsilon with
  | none => exact (Vec2.rotate_zero _).symm
  | some v => rfl

/-- **The centre moves along.** -/
theorem center_moved : (a.moved m).center = m.apply a.center := by
  calc (a.moved m).center
      = midpoint (m.apply a.p1) (m.apply a.p2) + a.d • (a.moved m).normal := rfl
    _ = m.apply (midpoint a.p1 a.p2) + (a.d • a.normal).rotate m.angle := by
        rw [normal_moved, m.midpoint_apply, Vec2.rotate_smul]
    _ = m.apply a.center := (m.apply_add _ _).symm

@[simp] theorem radius_moved : (a.moved m).radius = a.radius := by
  rw [radius, center_moved]
  exact m.distance_apply _ _

end Arc

end PlaneSketch
