import Mathlib.Analysis.SpecialFunctions.Complex.Arg
import PlaneSketch.Proofs.Plane.Vectors

/-!
# Clockwise angles

The circular functions over the real numbers, and the clockwise angle from one vector to another.

* `IsTurn`: what an angle from one vector to another has to satisfy; there is one in each full turn
  (`isTurn_clockwiseTo`, `IsTurn.eq`).
* `clockwiseTo_add`: **angles add up, except for a full turn.**
* `clockwiseTo_swap`: the way back is the rest of a full turn.
* `dot_eq_cos_sub`: the cosine between two vectors, measured from a third.
* `add_clockwiseTo_eq_iff`: on a circle, one vector is passed on the way from another to a third
  exactly when the three of them turn clockwise.
-/

namespace PlaneSketch

noncomputable instance : Angular ℝ where
  toScalar := inferInstance
  sin := Real.sin
  cos := Real.cos
  atan2 y x := Complex.arg ⟨x, y⟩
  turn := Real.pi + Real.pi

open Real (pi)

namespace Vec2

variable {u v w : Vec2 ℝ} {θ θ' : ℝ}

/-! ## The angle from one vector to another -/

/-- Turning `v` clockwise by `θ`, less than a full turn, gives the direction of `w`. -/
structure IsTurn (v w : Vec2 ℝ) (θ : ℝ) : Prop where
  nonneg : 0 ≤ θ
  lt : θ < 2 * pi
  dot : v.dot w = v.norm * w.norm * Real.cos θ
  cross : v.cross w = v.norm * w.norm * Real.sin θ

theorem norm_mk_dot_cross (v w : Vec2 ℝ) :
    ‖(⟨v.dot w, v.cross w⟩ : ℂ)‖ = v.norm * w.norm := by
  rw [Complex.norm_def, Complex.normSq_mk, dot_sq_add_cross_sq, norm_eq, norm_eq,
    Real.sqrt_mul v.normSq_nonneg]

theorem clockwiseTo_eq (v w : Vec2 ℝ) : v.clockwiseTo w =
    if Complex.arg ⟨v.dot w, v.cross w⟩ < 0 then Complex.arg ⟨v.dot w, v.cross w⟩ + 2 * pi
    else Complex.arg ⟨v.dot w, v.cross w⟩ := by
  have hLt : Complex.arg ⟨v.dot w, v.cross w⟩ < 2 * pi := by
    have hLe := Complex.arg_le_pi ⟨v.dot w, v.cross w⟩
    linarith [Real.pi_pos]
  rw [two_mul] at hLt ⊢
  show (if Complex.arg ⟨v.dot w, v.cross w⟩ < 0 then _
    else if pi + pi ≤ Complex.arg ⟨v.dot w, v.cross w⟩ then _ else _) = _
  rw [if_neg hLt.not_ge]
  rfl

theorem isTurn_clockwiseTo (v w : Vec2 ℝ) : IsTurn v w (v.clockwiseTo w) := by
  have hCos := Complex.norm_mul_cos_arg ⟨v.dot w, v.cross w⟩
  have hSin := Complex.norm_mul_sin_arg ⟨v.dot w, v.cross w⟩
  rw [norm_mk_dot_cross] at hCos hSin
  have hLower := Complex.neg_pi_lt_arg ⟨v.dot w, v.cross w⟩
  have hUpper := Complex.arg_le_pi ⟨v.dot w, v.cross w⟩
  have hPi := Real.pi_pos
  rw [clockwiseTo_eq]
  split
  · next hNeg =>
    refine ⟨by linarith, by linarith, ?_, ?_⟩
    · rw [Real.cos_add_two_pi, hCos]
    · rw [Real.sin_add_two_pi, hSin]
  · next hNonneg => exact ⟨not_lt.mp hNonneg, by linarith, hCos.symm, hSin.symm⟩

/-- There is only one such angle in a full turn. -/
theorem IsTurn.eq (h : IsTurn v w θ) (h' : IsTurn v w θ') (hv : v ≠ 0) (hw : w ≠ 0) : θ = θ' := by
  have hNorm : v.norm * w.norm ≠ 0 :=
    mul_ne_zero (norm_pos_iff.mpr hv).ne' (norm_pos_iff.mpr hw).ne'
  have hCos : Real.cos θ = Real.cos θ' := mul_left_cancel₀ hNorm (h.dot.symm.trans h'.dot)
  have hSin : Real.sin θ = Real.sin θ' := mul_left_cancel₀ hNorm (h.cross.symm.trans h'.cross)
  have hOne : Real.cos (θ - θ') = 1 := by
    rw [Real.cos_sub, hCos, hSin, ← pow_two, ← pow_two, Real.cos_sq_add_sin_sq]
  have hLower : -(2 * pi) < θ - θ' := by linarith [h.nonneg, h'.lt]
  have hUpper : θ - θ' < 2 * pi := by linarith [h.lt, h'.nonneg]
  exact sub_eq_zero.mp ((Real.cos_eq_one_iff_of_lt_of_lt hLower hUpper).mp hOne)

theorem dot_mul_dot_sub (u v w : Vec2 ℝ) :
    u.dot v * v.dot w - u.cross v * v.cross w = v.normSq * u.dot w := by
  simp only [dot_eq, cross_eq, normSq_eq]
  ring

theorem cross_mul_dot_add (u v w : Vec2 ℝ) :
    u.cross v * v.dot w + u.dot v * v.cross w = v.normSq * u.cross w := by
  simp only [dot_eq, cross_eq, normSq_eq]
  ring

/-- **Angles add up, except for a full turn.** -/
theorem clockwiseTo_add (hu : u ≠ 0) (hv : v ≠ 0) (hw : w ≠ 0) :
    u.clockwiseTo v + v.clockwiseTo w = u.clockwiseTo w ∨
      u.clockwiseTo v + v.clockwiseTo w = u.clockwiseTo w + 2 * pi := by
  have h := isTurn_clockwiseTo u v
  have h' := isTurn_clockwiseTo v w
  have hNormSq : v.normSq ≠ 0 := fun hZero => hv (normSq_eq_zero_iff.mp hZero)
  have hDot : u.dot w = u.norm * w.norm * Real.cos (u.clockwiseTo v + v.clockwiseTo w) := by
    refine mul_left_cancel₀ hNormSq ?_
    rw [← dot_mul_dot_sub, h.dot, h'.dot, h.cross, h'.cross, ← norm_mul_self, Real.cos_add]
    ring
  have hCross : u.cross w = u.norm * w.norm * Real.sin (u.clockwiseTo v + v.clockwiseTo w) := by
    refine mul_left_cancel₀ hNormSq ?_
    rw [← cross_mul_dot_add, h.dot, h'.dot, h.cross, h'.cross, ← norm_mul_self, Real.sin_add]
    ring
  by_cases hLt : u.clockwiseTo v + v.clockwiseTo w < 2 * pi
  · left
    exact IsTurn.eq ⟨add_nonneg h.nonneg h'.nonneg, hLt, hDot, hCross⟩ (isTurn_clockwiseTo u w)
      hu hw
  · right
    rw [← sub_eq_iff_eq_add]
    refine IsTurn.eq ⟨by linarith, by linarith [h.lt, h'.lt], ?_, ?_⟩ (isTurn_clockwiseTo u w) hu hw
    · rw [Real.cos_sub_two_pi, hDot]
    · rw [Real.sin_sub_two_pi, hCross]

/-- Where both products vanish there is nothing to turn. -/
theorem clockwiseTo_of_products_eq_zero (hDot : v.dot w = 0) (hCross : v.cross w = 0) :
    v.clockwiseTo w = 0 := by
  have hArg : Complex.arg ⟨v.dot w, v.cross w⟩ = 0 := by
    rw [hDot, hCross]
    exact Complex.arg_zero
  rw [clockwiseTo_eq, hArg, if_neg (lt_irrefl _)]

theorem clockwiseTo_zero_left (v : Vec2 ℝ) : (0 : Vec2 ℝ).clockwiseTo v = 0 :=
  clockwiseTo_of_products_eq_zero (by simp [dot_eq]) (by simp [cross_eq])

theorem clockwiseTo_zero_right (v : Vec2 ℝ) : v.clockwiseTo 0 = 0 :=
  clockwiseTo_of_products_eq_zero (by simp [dot_eq]) (by simp [cross_eq])

theorem clockwiseTo_self (v : Vec2 ℝ) : v.clockwiseTo v = 0 := by
  by_cases hv : v = 0
  · rw [hv, clockwiseTo_zero_left]
  · have hTurn : IsTurn v v 0 := by
      refine ⟨le_refl _, Real.two_pi_pos, ?_, ?_⟩
      · rw [Real.cos_zero, mul_one, norm_mul_self]
        rfl
      · rw [Real.sin_zero, mul_zero, cross_eq, mul_comm, sub_self]
    exact (isTurn_clockwiseTo v v).eq hTurn hv hv

/-- The angle to a vector is the angle to its direction. -/
theorem clockwiseTo_smul {k : ℝ} (hk : 0 < k) (v w : Vec2 ℝ) :
    v.clockwiseTo (k • w) = v.clockwiseTo w := by
  have hDot : v.dot (k • w) = k * v.dot w := by
    simp only [dot_eq, smul_x, smul_y]
    ring
  have hCross : v.cross (k • w) = k * v.cross w := by
    simp only [cross_eq, smul_x, smul_y]
    ring
  have hArg : Complex.arg ⟨k * v.dot w, k * v.cross w⟩ = Complex.arg ⟨v.dot w, v.cross w⟩ := by
    rw [← Complex.arg_real_mul ⟨v.dot w, v.cross w⟩ hk]
    exact congrArg Complex.arg (Complex.ext (by simp) (by simp))
  rw [clockwiseTo_eq, hDot, hCross, hArg, ← clockwiseTo_eq]

/-- The cosine between two vectors by their angles from a third. -/
theorem dot_eq_cos_sub (hu : u ≠ 0) (v w : Vec2 ℝ) :
    v.dot w = v.norm * w.norm * Real.cos (u.clockwiseTo w - u.clockwiseTo v) := by
  have hNormSq : u.normSq ≠ 0 := fun hZero => hu (normSq_eq_zero_iff.mp hZero)
  have h := isTurn_clockwiseTo u v
  have h' := isTurn_clockwiseTo u w
  refine mul_left_cancel₀ hNormSq ?_
  calc u.normSq * v.dot w
      = u.dot v * u.dot w + u.cross v * u.cross w := by
        simp only [dot_eq, cross_eq, normSq_eq]
        ring
    _ = u.normSq * (v.norm * w.norm * Real.cos (u.clockwiseTo w - u.clockwiseTo v)) := by
        rw [h.dot, h'.dot, h.cross, h'.cross, ← norm_mul_self, Real.cos_sub]
        ring

/-! ## Three vectors of one length -/

/-- Vectors of one length that point the same way are equal. -/
theorem clockwiseTo_pos (hNorm : u.norm = v.norm) (hNe : u ≠ v) : 0 < u.clockwiseTo v := by
  have h := isTurn_clockwiseTo u v
  refine lt_of_le_of_ne h.nonneg fun hZero => hNe ?_
  have hDot := h.dot
  rw [← hZero, Real.cos_zero, mul_one, hNorm, norm_mul_self] at hDot
  have hNormSq : u.normSq = v.normSq := by rw [← norm_mul_self, hNorm, norm_mul_self]
  have hDiff : (u - v).normSq = 0 := by
    simp only [dot_eq, normSq_eq, sub_x, sub_y] at hDot hNormSq ⊢
    linarith
  have hSub := normSq_eq_zero_iff.mp hDiff
  have hx := congrArg Vec2.x hSub
  have hy := congrArg Vec2.y hSub
  exact ext (sub_eq_zero.mp hx) (sub_eq_zero.mp hy)

/-- **The way back is the rest of a full turn.** -/
theorem clockwiseTo_swap (hNorm : u.norm = v.norm) (hv : v ≠ 0) (hNe : u ≠ v) :
    v.clockwiseTo u = 2 * pi - u.clockwiseTo v := by
  have hu : u ≠ 0 := ne_zero_of_norm_eq hNorm hv
  have hPos := clockwiseTo_pos hNorm hNe
  have hNonneg := (isTurn_clockwiseTo v u).nonneg
  rcases clockwiseTo_add hu hv hu with h | h
  · rw [clockwiseTo_self] at h
    linarith
  · rw [clockwiseTo_self] at h
    linarith

theorem sin_add_sin_sub_sin_add (a b : ℝ) :
    Real.sin (2 * a) + Real.sin (2 * b) - Real.sin (2 * a + 2 * b) =
      4 * Real.sin a * Real.sin b * Real.sin (a + b) := by
  rw [Real.sin_add (2 * a), Real.sin_add a, Real.sin_two_mul, Real.sin_two_mul,
    Real.cos_two_mul', Real.cos_two_mul']
  linear_combination
    -(2 * Real.sin a * Real.cos a) * Real.cos_sq_add_sin_sq b -
      (2 * Real.sin b * Real.cos b) * Real.cos_sq_add_sin_sq a

/-- The turn from `u` over `v` to `w` by the half angles. -/
theorem cross_sub_sub_eq (huv : u.norm = v.norm) (hvw : v.norm = w.norm) (hv : v ≠ 0) :
    (v - u).cross (w - v) = 4 * v.normSq *
      (Real.sin (u.clockwiseTo v / 2) * Real.sin (v.clockwiseTo w / 2) *
        Real.sin ((u.clockwiseTo v + v.clockwiseTo w) / 2)) := by
  have hu : u ≠ 0 := ne_zero_of_norm_eq huv hv
  have hw : w ≠ 0 := ne_zero_of_norm_eq hvw.symm hv
  have hSin : Real.sin (u.clockwiseTo w) = Real.sin (u.clockwiseTo v + v.clockwiseTo w) := by
    rcases clockwiseTo_add hu hv hw with h | h
    · rw [h]
    · rw [h, Real.sin_add_two_pi]
  have hHalves := sin_add_sin_sub_sin_add (u.clockwiseTo v / 2) (v.clockwiseTo w / 2)
  rw [mul_div_cancel₀ _ two_ne_zero, mul_div_cancel₀ _ two_ne_zero, ← add_div, ← hSin] at hHalves
  calc (v - u).cross (w - v)
      = u.cross v + v.cross w - u.cross w := by
        simp only [cross_eq, sub_x, sub_y]
        ring
    _ = v.normSq * (Real.sin (u.clockwiseTo v) + Real.sin (v.clockwiseTo w) -
          Real.sin (u.clockwiseTo w)) := by
        rw [(isTurn_clockwiseTo u v).cross, (isTurn_clockwiseTo v w).cross,
          (isTurn_clockwiseTo u w).cross, huv, ← hvw, norm_mul_self]
        ring
    _ = _ := by
        rw [hHalves]
        ring

/-- **On a circle, `v` is passed on the way from `u` to `w` exactly when `u`, `v`, `w` turn
clockwise.** -/
theorem add_clockwiseTo_eq_iff (huv : u.norm = v.norm) (hvw : v.norm = w.norm) (hv : v ≠ 0)
    (hNe : u ≠ v) (hNe' : v ≠ w) :
    u.clockwiseTo v + v.clockwiseTo w = u.clockwiseTo w ↔ 0 < (v - u).cross (w - v) := by
  have hu : u ≠ 0 := ne_zero_of_norm_eq huv hv
  have hw : w ≠ 0 := ne_zero_of_norm_eq hvw.symm hv
  have hFirst := clockwiseTo_pos huv hNe
  have hSecond := clockwiseTo_pos hvw hNe'
  have hFirstLt := (isTurn_clockwiseTo u v).lt
  have hSecondLt := (isTurn_clockwiseTo v w).lt
  have hFactor : 0 < 4 * v.normSq := by
    rw [← norm_mul_self]
    positivity [norm_pos_iff.mpr hv]
  -- both half angles are less than half a turn, so the sign is that of the sine of their sum
  have hSines : 0 < Real.sin (u.clockwiseTo v / 2) * Real.sin (v.clockwiseTo w / 2) :=
    mul_pos (Real.sin_pos_of_pos_of_lt_pi (by linarith) (by linarith))
      (Real.sin_pos_of_pos_of_lt_pi (by linarith) (by linarith))
  rw [cross_sub_sub_eq huv hvw hv, mul_pos_iff_of_pos_left hFactor, mul_pos_iff_of_pos_left hSines]
  constructor
  · intro h
    have hLt := (isTurn_clockwiseTo u w).lt
    exact Real.sin_pos_of_pos_of_lt_pi (by linarith) (by linarith)
  · intro hPos
    refine (clockwiseTo_add hu hv hw).resolve_right fun h => hPos.not_ge ?_
    have hNonneg := (isTurn_clockwiseTo u w).nonneg
    rw [← Real.sin_sub_two_pi]
    exact Real.sin_nonpos_of_nonpos_of_neg_pi_le (by linarith) (by linarith)

/-- An angle that is off by a full turn is not near. -/
theorem near_add_clockwiseTo_iff (hu : u ≠ 0) (hv : v ≠ 0) (hw : w ≠ 0) :
    Scalar.near (u.clockwiseTo v + v.clockwiseTo w) (u.clockwiseTo w) = true ↔
      u.clockwiseTo v + v.clockwiseTo w = u.clockwiseTo w := by
  rw [Scalar.near, decide_eq_true_eq, Scalar.abs_real, Scalar.tolerance_real]
  constructor
  · intro hNear
    refine (clockwiseTo_add hu hv hw).resolve_right fun h => ?_
    rw [h, add_sub_cancel_left, abs_of_pos Real.two_pi_pos] at hNear
    linarith [Real.two_le_pi]
  · intro h
    rw [h, sub_self, abs_zero]
    norm_num

/-- The angle to a vector passed on the way is no greater, and to one not passed it is greater. -/
theorem clockwiseTo_le_iff (hu : u ≠ 0) (hv : v ≠ 0) (hw : w ≠ 0) :
    u.clockwiseTo v ≤ u.clockwiseTo w ↔
      u.clockwiseTo v + v.clockwiseTo w = u.clockwiseTo w := by
  have hSecond := isTurn_clockwiseTo v w
  constructor
  · intro hLe
    exact (clockwiseTo_add hu hv hw).resolve_right fun h => by linarith [hSecond.lt]
  · intro h
    linarith [hSecond.nonneg]

end Vec2

end PlaneSketch
