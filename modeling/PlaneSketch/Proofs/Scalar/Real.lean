import Mathlib.Analysis.Real.Sqrt
import PlaneSketch.Proofs.Scalar.Order

/-!
# Exact arithmetic

The real numbers as scalars: nothing is rounded, and every scalar is a number.
-/

namespace PlaneSketch

noncomputable instance : Scalar ℝ where
  toAdd := inferInstance
  toSub := inferInstance
  toMul := inferInstance
  toDiv := inferInstance
  toNeg := inferInstance
  toZero := inferInstance
  toOne := inferInstance
  toOfScientific := inferInstance
  toLT := inferInstance
  toLE := inferInstance
  sqrt := Real.sqrt
  abs x := |x|
  isFinite _ := true
  decidableLT := inferInstance
  decidableLE := inferInstance

namespace Scalar

instance : Total ℝ where
  trans := le_trans
  left _ := le_refl _
  right _ := le_refl _
  total _ _ := le_total _ _
  lt_iff := lt_iff_le_not_ge
  zero := le_refl _
  isNumber _ := le_refl _
  add_le_add_left c _ _ h := add_le_add_right h c
  mul_le_mul_left h h' := mul_le_mul_of_nonneg_left h' h

@[simp] theorem abs_real (x : ℝ) : Scalar.abs x = |x| := rfl

@[simp] theorem isFinite_real (x : ℝ) : Scalar.isFinite x = true := rfl

theorem larger_real (x y : ℝ) : larger x y = max x y := by
  rw [larger]
  split
  · next h => exact (max_eq_left h).symm
  · next h => rw [if_pos (le_refl y), max_eq_right (le_of_not_ge h)]

theorem smaller_real (x y : ℝ) : smaller x y = min x y := by
  rw [smaller]
  split
  · next h => exact (min_eq_left h).symm
  · next h => rw [if_pos (le_refl y), min_eq_right (le_of_not_ge h)]

end Scalar

end PlaneSketch
