import Mathlib.Tactic.NormNum.OfScientific
import PlaneSketch.Optimize.InteriorPoint
import PlaneSketch.Proofs.LinearAlgebra.Update

/-!
# Steps in exact arithmetic

* `Kernel.exact_solveKkt_eq`, `Kernel.exact_withRangeStep_eq`: what the linear systems of a step
  give if they have just one solution.
* `Problem.entry_jacobian`, `differenceQuotient`: central differences.
* `ext_get_iff`, `get_add`, `get_neg`, …: equations of vectors, entry by entry.
-/

namespace PlaneSketch

variable {m n : Nat}

theorem allFinite_real (v : Vector ℝ n) : allFinite v = true := by
  rw [allFinite, Vector.all_eq_true]
  exact fun _ _ => rfl

namespace Kernel

theorem solveKkt_of_leastSquares {α : Type} [Scalar α] {k : Kernel α} {h : Mat α n n}
    {a : Mat α m n} {g p : Vector α n} {c multipliers : Vector α m}
    (hSolution : k.leastSquares (Mat.blocks h a.transpose a (0 : Mat α m m)) (-g ++ -c) =
      p ++ multipliers)
    (hFinite : allFinite (p ++ multipliers) = true) :
    k.solveKkt h a g c = some (p, multipliers) := by
  rw [solveKkt]
  simp only [hSolution]
  rw [if_pos hFinite]
  refine congrArg some (Prod.ext (Vector.ext fun i hi => ?_) (Vector.ext fun i hi => ?_))
  · rw [Vector.getElem_ofFn]
    exact get_append_castAdd p multipliers ⟨i, hi⟩
  · rw [Vector.getElem_ofFn]
    exact get_append_natAdd p multipliers ⟨i, hi⟩

variable {h : Mat ℝ n n} {a : Mat ℝ m n} {g p q : Vector ℝ n} {c multipliers : Vector ℝ m}

/-- The step and the multipliers of a quadratic model that has no others. -/
theorem exact_solveKkt_eq
    (hDual : h.mulVec p + a.transpose.mulVec multipliers = -g) (hPrimal : a.mulVec p = -c)
    (hUnique : ∀ q μ, h.mulVec q + a.transpose.mulVec μ = -g → a.mulVec q = -c →
      q = p ∧ μ = multipliers) :
    exact.solveKkt h a g c = some (p, multipliers) := by
  refine solveKkt_of_leastSquares (exact_leastSquares_eq ?_ fun y hy => ?_) (allFinite_real _)
  · rw [Mat.mulVec_saddle, hDual, hPrimal]
  · obtain ⟨q, μ, rfl⟩ := exists_eq_append y
    rw [Mat.mulVec_saddle] at hy
    obtain ⟨rfl, rfl⟩ := hUnique q μ (Vector.append_inj_left hy) (Vector.append_inj_right hy)
    rfl

theorem exact_withRangeStep_eq (hm : m ≠ 0) (hSolution : a.mulVec q = -c)
    (hInjective : ∀ x y, a.mulVec x = a.mulVec y → x = y) (p : Vector ℝ n) :
    exact.withRangeStep a c p = some q := by
  have hNewton : exact.leastSquares a (-c) = q :=
    exact_leastSquares_eq hSolution fun y hy => hInjective y q (hy.trans hSolution.symm)
  have hRange : exact.leastSquares a (a.mulVec p) = p :=
    exact_leastSquares_eq rfl fun y hy => hInjective y p hy
  rw [withRangeStep, if_neg hm]
  simp only [hNewton, hRange]
  rw [if_pos (allFinite_real _)]
  refine congrArg some (euclidean_injective ?_)
  rw [euclidean_sub, euclidean_add, add_sub_cancel_right]

end Kernel

/-! ## Central differences -/

/-- An entry of the Jacobian matrix is a central difference. -/
theorem Problem.entry_jacobian {α : Type} [Scalar α] (p : Problem α n m) (step : α)
    (x : Vector α n) (i : Fin m) (j : Fin n) :
    (p.jacobian step x).entry i j =
      ((p.residuals (x.set j (x.get j + relativeStep step (x.get j)) j.isLt)).get i -
        (p.residuals (x.set j (x.get j - relativeStep step (x.get j)) j.isLt)).get i) /
          (2.0 * relativeStep step (x.get j)) := by
  simp only [Problem.jacobian, Mat.transpose, Mat.ofFn, Mat.entry, Fin.getElem_fin,
    Vector.getElem_ofFn, Vector.getElem_map, Vector.getElem_sub]
  rfl

theorem relativeStep_ne_zero {step : ℝ} (h : step ≠ 0) (x : ℝ) :
    Problem.relativeStep step x ≠ 0 :=
  mul_ne_zero h (ne_of_gt (add_pos_of_pos_of_nonneg one_pos (abs_nonneg x)))

theorem differenceQuotient {a b d t : ℝ} (ht : t ≠ 0) (h : a - b = 2 * t * d) :
    (a - b) / (2.0 * t) = d := by
  have hTwo : (2.0 : ℝ) = 2 := by norm_num
  rw [h, hTwo, mul_div_cancel_left₀ d (mul_ne_zero two_ne_zero ht)]

/-! ## Vectors by their entries -/

theorem ext_get_iff {β : Type} {v w : Vector β n} : v = w ↔ ∀ i, v.get i = w.get i :=
  ⟨fun h _ => h ▸ rfl, fun h => Vector.ext fun i hi => h ⟨i, hi⟩⟩

@[simp]
theorem get_mk {β : Type} (xs : Array β) (h : xs.size = n) (i : Fin n) :
    Vector.get ⟨xs, h⟩ i = xs[i.val] := rfl

section Entries

variable (v w : Vector ℝ n) (a : ℝ) (i : Fin n)

@[simp]
theorem get_add : (v + w).get i = v.get i + w.get i := Vector.getElem_add v w i i.isLt

@[simp]
theorem get_sub : (v - w).get i = v.get i - w.get i := Vector.getElem_sub v w i i.isLt

@[simp]
theorem get_neg : (-v).get i = -v.get i := Vector.getElem_neg v i i.isLt

@[simp]
theorem get_smul : (a * v).get i = a * v.get i := Vector.getElem_hmul a v i i.isLt

end Entries

theorem maxAbs_cons (x : ℝ) (l : List ℝ) (h : (x :: l).toArray.size = n) :
    maxAbs ⟨(x :: l).toArray, h⟩ = l.foldl (fun most y => max most |y|) |x| := by
  simp [maxAbs_eq_foldl, Scalar.larger_real]

end PlaneSketch
