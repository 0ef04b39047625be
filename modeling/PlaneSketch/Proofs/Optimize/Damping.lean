import Mathlib.Tactic.NormNum.OfScientific
import PlaneSketch.Optimize.Sqp
import PlaneSketch.Proofs.LinearAlgebra.Update
import PlaneSketch.Proofs.Optimize.Exact

/-!
# The damped update

The approximation of the Hessian is updated so that it takes the last step to the change of the
gradient along it.  Where the objective curves downwards no positive definite matrix does that, and
the change is mixed with the old image of the step until enough curvature is left.

* `Sqp.dotInOrder_dampedChange`: **the mixture has the curvature that was found, or a fifth of the
  old one if that is more.**
* `Sqp.isPositiveDefinite_dampedBfgs`: so the update is positive definite, whatever was found.
* `Sqp.dampedBfgs_spec`: what the update gives in all cases.
-/

namespace PlaneSketch.Sqp

open Scalar (machineEpsilon)

section Damping

variable {α : Type} [Scalar α] {n : Nat}

/-- The share of the change of the gradient in its mixture with the old image: all of it if the
curvature that was found is at least a fifth of the old one. -/
def damping (old found : α) : α := if 0.2 * old ≤ found then 1 else 0.8 * old / (old - found)

/-- The mixture of the change of the gradient with the old image of the step. -/
def dampedChange (b : Mat α n n) (s y : Vector α n) : Vector α n :=
  let theta := damping (dot s (b.mulVec s)) (dot s y)
  theta * y + (1 - theta) * b.mulVec s

theorem dampedBfgs_eq (b : Mat α n n) (s y : Vector α n) :
    dampedBfgs b s y =
      if dot s (b.mulVec s) ≤ machineEpsilon then b
      else if dot s (dampedChange b s y) ≤ machineEpsilon then b
      else Mat.secantUpdate b s (dampedChange b s y) := rfl

theorem dampedBfgs_of_le {b : Mat α n n} {s y : Vector α n}
    (h : dot s (b.mulVec s) ≤ machineEpsilon ∨ dot s (dampedChange b s y) ≤ machineEpsilon) :
    dampedBfgs b s y = b := by
  rw [dampedBfgs_eq]
  split
  · rfl
  · next hOld => rw [if_pos (h.resolve_left hOld)]

theorem dampedBfgs_of_not_le {b : Mat α n n} {s y : Vector α n}
    (hOld : ¬ dot s (b.mulVec s) ≤ machineEpsilon)
    (hNew : ¬ dot s (dampedChange b s y) ≤ machineEpsilon) :
    dampedBfgs b s y = Mat.secantUpdate b s (dampedChange b s y) := by
  rw [dampedBfgs_eq, if_neg hOld, if_neg hNew]

end Damping

variable {n : Nat} {b : Mat ℝ n n} {s y : Vector ℝ n}

theorem machineEpsilon_pos : (0 : ℝ) < machineEpsilon := by
  show (0 : ℝ) < 1 / 4503599627370496.0
  norm_num

/-- Enough curvature is not damped. -/
theorem dampedChange_of_le (h : 0.2 * dot s (b.mulVec s) ≤ dot s y) : dampedChange b s y = y := by
  have hAll : damping (dot s (b.mulVec s)) (dot s y) = 1 := if_pos h
  refine euclidean_injective ?_
  simp only [dampedChange, hAll, sub_self, euclidean_add, euclidean_smul, one_smul, zero_smul,
    add_zero]

/-- **The curvature of the mixture** is the one that was found, or a fifth of the old one if that
is more. -/
theorem dotInOrder_dampedChange (hOld : 0 < dot s (b.mulVec s)) :
    dotInOrder s (dampedChange b s y) = max (dot s y) (0.2 * dot s (b.mulVec s)) := by
  by_cases h : 0.2 * dot s (b.mulVec s) ≤ dot s y
  · rw [dampedChange_of_le h, max_eq_left h, dot_real]
  · have hLess := not_le.mp h
    have hGap : dot s (b.mulVec s) - dot s y ≠ 0 := by
      have hFifth : 0.2 * dot s (b.mulVec s) < dot s (b.mulVec s) := by linarith
      exact ne_of_gt (sub_pos.mpr (lt_trans hLess hFifth))
    rw [max_eq_right (le_of_lt hLess), dampedChange, damping, if_neg h]
    rw [dotInOrder_add, dotInOrder_smul, dotInOrder_smul, ← dot_real, ← dot_real]
    field_simp
    ring

theorem fifth_le_dot_dampedChange (hOld : 0 < dot s (b.mulVec s)) :
    0.2 * dot s (b.mulVec s) ≤ dot s (dampedChange b s y) := by
  rw [dot_real s (dampedChange b s y), dotInOrder_dampedChange hOld]
  exact le_max_right _ _

/-- **The update is symmetric again.** -/
theorem isSymmetric_dampedBfgs (h : b.IsSymmetric) (s y : Vector ℝ n) :
    (dampedBfgs b s y).IsSymmetric := by
  rw [dampedBfgs_eq]
  split
  · exact h
  · split
    · exact h
    · exact Mat.isSymmetric_secantUpdate h s _

/-- **The update is positive definite again**, also if the curvature that was found is negative. -/
theorem isPositiveDefinite_dampedBfgs (hSymmetric : b.IsSymmetric)
    (hPositive : b.IsPositiveDefinite) (s y : Vector ℝ n) :
    (dampedBfgs b s y).IsPositiveDefinite := by
  rw [dampedBfgs_eq]
  split
  · exact hPositive
  · next hOld =>
    split
    · exact hPositive
    · next hNew =>
      rw [not_le, dot_real] at hOld hNew
      exact Mat.isPositiveDefinite_secantUpdate hSymmetric hPositive
        (ne_of_gt (lt_trans machineEpsilon_pos hOld)) (lt_trans machineEpsilon_pos hNew)

/-- **The damped update keeps the approximation positive definite.**  It changes nothing along a
step with too little curvature, and else takes the step to the mixture, which has at least a fifth
of the old curvature and is the change of the gradient itself if that has as much. -/
theorem dampedBfgs_spec (hSymmetric : b.IsSymmetric) (hPositive : b.IsPositiveDefinite)
    (s y : Vector ℝ n) :
    let old := dot s (b.mulVec s)
    let theta := damping old (dot s y)
    let r := theta * y + (1 - theta) * b.mulVec s
    let updated := dampedBfgs b s y
    updated.IsSymmetric ∧ updated.IsPositiveDefinite ∧
      (old ≤ machineEpsilon ∨ dot s r ≤ machineEpsilon → updated = b) ∧
      (machineEpsilon < old → 0.2 * old ≤ dot s r ∧ (0.2 * old ≤ dot s y → r = y) ∧
        (machineEpsilon < dot s r → updated.mulVec s = r)) := by
  intro old theta r updated
  refine ⟨isSymmetric_dampedBfgs hSymmetric s y,
    isPositiveDefinite_dampedBfgs hSymmetric hPositive s y, dampedBfgs_of_le, fun hOld => ?_⟩
  have hPos : 0 < old := lt_trans machineEpsilon_pos hOld
  refine ⟨fifth_le_dot_dampedChange hPos, dampedChange_of_le, fun hNew => ?_⟩
  have hUpdated : updated = Mat.secantUpdate b s (dampedChange b s y) :=
    dampedBfgs_of_not_le (not_le_of_gt hOld) (not_le_of_gt hNew)
  have hNewPos : 0 < dot s (dampedChange b s y) := lt_trans machineEpsilon_pos hNew
  rw [hUpdated, Mat.mulVec_secantUpdate_self (dot_real s _ ▸ ne_of_gt hPos)
    (dot_real s _ ▸ ne_of_gt hNewPos)]
  rfl

/-- A step along which the objective curves downwards. -/
theorem dampedBfgs_downwards :
    let b : Mat ℝ 2 2 := Mat.identity 2
    (dampedBfgs b #v[1, 2] #v[-3, 1]).IsSymmetric ∧
      (dampedBfgs b #v[1, 2] #v[-3, 1]).IsPositiveDefinite ∧
      (dampedBfgs b #v[1, 2] #v[-3, 1]).mulVec #v[1, 2] = #v[-5 / 3, 4 / 3] := by
  intro b
  obtain ⟨hSymmetric, hPositive, -, hSecant⟩ := dampedBfgs_spec Mat.isSymmetric_identity
    Mat.isPositiveDefinite_identity (#v[1, 2] : Vector ℝ 2) #v[-3, 1]
  have hOld : dot (#v[1, 2] : Vector ℝ 2) #v[1, 2] = 5 := by
    rw [dot_real, dotInOrder_real, Fin.sum_univ_two]
    show (1 * 1 + 2 * 2 : ℝ) = 5
    norm_num
  have hFound : dot (#v[1, 2] : Vector ℝ 2) #v[-3, 1] = -1 := by
    rw [dot_real, dotInOrder_real, Fin.sum_univ_two]
    show (1 * -3 + 2 * 1 : ℝ) = -1
    norm_num
  have hTheta : damping (5 : ℝ) (-1) = 2 / 3 := by
    rw [damping, if_neg (by norm_num)]
    norm_num
  have hMixture : (2 / 3 : ℝ) * (#v[-3, 1] : Vector ℝ 2) +
      (1 - 2 / 3 : ℝ) * (#v[1, 2] : Vector ℝ 2) = #v[-5 / 3, 4 / 3] := by
    simp only [ext_get_iff, Fin.forall_fin_two, get_add, get_smul]
    exact ⟨show (2 / 3 * -3 + (1 - 2 / 3) * 1 : ℝ) = -5 / 3 by norm_num,
      show (2 / 3 * 1 + (1 - 2 / 3) * 2 : ℝ) = 4 / 3 by norm_num⟩
  have hNew : dot (#v[1, 2] : Vector ℝ 2) #v[-5 / 3, 4 / 3] = 1 := by
    rw [dot_real, dotInOrder_real, Fin.sum_univ_two]
    show (1 * (-5 / 3) + 2 * (4 / 3) : ℝ) = 1
    norm_num
  have hEpsilon : (machineEpsilon : ℝ) < 1 := by
    show (1 / 4503599627370496.0 : ℝ) < 1
    norm_num
  rw [Mat.identity_mulVec, hOld, hFound, hTheta, hMixture, hNew] at hSecant
  exact ⟨hSymmetric, hPositive, (hSecant (by linarith)).2.2 hEpsilon⟩

end PlaneSketch.Sqp
