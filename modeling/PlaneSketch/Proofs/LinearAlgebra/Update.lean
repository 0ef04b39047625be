import PlaneSketch.Proofs.LinearAlgebra.Saddle

/-!
# Secant updates

A symmetric positive definite matrix with its image of one vector replaced.  Off the line of that
vector the quadratic form loses what the old image contributed, which leaves it positive since
completing the square does, and gains what the new image contributes; on the line only the new
image counts.

* `Mat.secantUpdate`: the update, of rank two.
* `Mat.mulVec_secantUpdate_self`: **it has the new image**.
* `Mat.isSymmetric_secantUpdate`, `Mat.isPositiveDefinite_secantUpdate`: **it is symmetric and
  positive definite again** if the new image is at an acute angle.
-/

namespace PlaneSketch

variable {m n : Nat}

/-! ## Products -/

theorem euclidean_smul (c : ℝ) (v : Vector ℝ n) : euclidean (c * v) = c • euclidean v := by
  ext i
  exact Vector.getElem_hmul c v i i.isLt

theorem dotInOrder_add (u v w : Vector ℝ n) :
    dotInOrder u (v + w) = dotInOrder u v + dotInOrder u w := by
  simp only [dotInOrder_eq_inner, euclidean_add, inner_add_right]

theorem dotInOrder_sub (u v w : Vector ℝ n) :
    dotInOrder u (v - w) = dotInOrder u v - dotInOrder u w := by
  simp only [dotInOrder_eq_inner, euclidean_sub, inner_sub_right]

theorem sub_dotInOrder (u v w : Vector ℝ n) :
    dotInOrder (u - v) w = dotInOrder u w - dotInOrder v w := by
  rw [dotInOrder_comm, dotInOrder_sub, dotInOrder_comm w, dotInOrder_comm w]

theorem dotInOrder_neg (u v : Vector ℝ n) : dotInOrder u (-v) = -dotInOrder u v := by
  simp only [dotInOrder_eq_inner, euclidean_neg, inner_neg_right]

theorem neg_dotInOrder (u v : Vector ℝ n) : dotInOrder (-u) v = -dotInOrder u v := by
  rw [dotInOrder_comm, dotInOrder_neg, dotInOrder_comm]

theorem dotInOrder_smul (u v : Vector ℝ n) (c : ℝ) :
    dotInOrder u (c * v) = c * dotInOrder u v := by
  simp only [dotInOrder_eq_inner, euclidean_smul, real_inner_smul_right]

theorem smul_dotInOrder (u v : Vector ℝ n) (c : ℝ) :
    dotInOrder (c * u) v = c * dotInOrder u v := by
  rw [dotInOrder_comm, dotInOrder_smul, dotInOrder_comm]

theorem mulVec_smul (a : Mat ℝ m n) (c : ℝ) (v : Vector ℝ n) :
    a.mulVec (c * v) = c * a.mulVec v := by
  refine euclidean_injective ?_
  rw [euclidean_smul, euclidean_mulVec, euclidean_mulVec, euclidean_smul, map_smul]

namespace Mat

/-! ## Matrices -/

theorem add_mulVec (a a' : Mat ℝ m n) (v : Vector ℝ n) :
    (a + a').mulVec v = a.mulVec v + a'.mulVec v := by
  refine Vector.ext fun i hi => ?_
  simp only [mulVec, Vector.getElem_map, Vector.getElem_add, add_dotInOrder]

theorem sub_mulVec (a a' : Mat ℝ m n) (v : Vector ℝ n) :
    (a - a').mulVec v = a.mulVec v - a'.mulVec v := by
  refine Vector.ext fun i hi => ?_
  simp only [mulVec, Vector.getElem_map, Vector.getElem_sub, sub_dotInOrder]

theorem isSymmetric_iff {a : Mat ℝ n n} :
    a.IsSymmetric ↔ ∀ i j, a.entry i j = a.entry j i := by
  constructor
  · exact fun h i j => h.entry_comm j i
  · intro h
    refine ext_entry fun i j => ?_
    rw [transpose, entry_ofFn]
    exact h j i

theorem IsSymmetric.dotInOrder_mulVec_comm {a : Mat ℝ n n} (h : a.IsSymmetric)
    (v w : Vector ℝ n) : dotInOrder v (a.mulVec w) = dotInOrder (a.mulVec v) w := by
  rw [dotInOrder_eq_inner, dotInOrder_eq_inner, euclidean_mulVec, euclidean_mulVec,
    h.isSymmetric_linear]

theorem identity_mulVec (v : Vector ℝ n) : (identity n : Mat ℝ n n).mulVec v = v := by
  refine Vector.ext fun i hi => (get_mulVec _ v ⟨i, hi⟩).trans ?_
  simp only [identity, entry_ofFn, ite_mul, one_mul, zero_mul, Finset.sum_ite_eq, Finset.mem_univ,
    if_true]
  rfl

theorem isSymmetric_identity : (identity n : Mat ℝ n n).IsSymmetric := by
  refine isSymmetric_iff.mpr fun i j => ?_
  rw [identity, entry_ofFn, entry_ofFn]
  simp only [eq_comm]

theorem isPositiveDefinite_identity : (identity n : Mat ℝ n n).IsPositiveDefinite := by
  intro v hv
  rw [identity_mulVec]
  refine lt_of_le_of_ne ?_ fun h => hv (dotInOrder_self_eq_zero.mp h.symm)
  rw [dotInOrder_eq_inner]
  exact real_inner_self_nonneg

/-! ## The update -/

/-- The matrix of products of the entries of a vector, divided by a number. -/
def outerOver {α : Type} [Scalar α] (r : Vector α n) (t : α) : Mat α n n :=
  (outer r r).map (·.map (· / t))

theorem entry_outerOver (r : Vector ℝ n) (t : ℝ) (i j : Fin n) :
    (outerOver r t).entry i j = r.get i * r.get j / t := by
  simp [outerOver, outer, entry, Vector.get]

theorem mulVec_outerOver (r v : Vector ℝ n) (t : ℝ) :
    (outerOver r t).mulVec v = (dotInOrder r v / t) * r := by
  refine Vector.ext fun i hi => ?_
  have hRow : (outerOver r t)[i] = (r[i] / t) * r := by
    refine Vector.ext fun j hj => ?_
    rw [outerOver, outer, Vector.getElem_map, Vector.getElem_map, Vector.getElem_map,
      Vector.getElem_map, Vector.getElem_hmul]
    ring
  rw [mulVec, Vector.getElem_map, hRow, smul_dotInOrder, Vector.getElem_hmul]
  ring

/-- The symmetric matrix with the image of `s` under `b` replaced by `r`. -/
def secantUpdate {α : Type} [Scalar α] (b : Mat α n n) (s r : Vector α n) : Mat α n n :=
  b + (outerOver r (dot s r) - outerOver (b.mulVec s) (dot s (b.mulVec s)))

variable {b : Mat ℝ n n} {s r : Vector ℝ n}

theorem mulVec_secantUpdate (b : Mat ℝ n n) (s r v : Vector ℝ n) :
    (secantUpdate b s r).mulVec v = b.mulVec v + ((dotInOrder r v / dotInOrder s r) * r -
      (dotInOrder (b.mulVec s) v / dotInOrder s (b.mulVec s)) * b.mulVec s) := by
  rw [secantUpdate, add_mulVec, sub_mulVec, mulVec_outerOver, mulVec_outerOver, dot_real, dot_real]

/-- **The update has the new image.** -/
theorem mulVec_secantUpdate_self (hOld : dotInOrder s (b.mulVec s) ≠ 0)
    (hNew : dotInOrder s r ≠ 0) : (secantUpdate b s r).mulVec s = r := by
  refine euclidean_injective ?_
  rw [mulVec_secantUpdate, dotInOrder_comm r, dotInOrder_comm (b.mulVec s), div_self hOld,
    div_self hNew]
  simp only [euclidean_add, euclidean_sub, euclidean_smul, one_smul]
  abel

theorem isSymmetric_secantUpdate (h : b.IsSymmetric) (s r : Vector ℝ n) :
    (secantUpdate b s r).IsSymmetric := by
  have hEntry : ∀ i j, (secantUpdate b s r).entry i j = b.entry i j +
      ((outerOver r (dot s r)).entry i j -
        (outerOver (b.mulVec s) (dot s (b.mulVec s))).entry i j) := by
    intro i j
    simp [secantUpdate, entry]
  refine isSymmetric_iff.mpr fun i j => ?_
  rw [hEntry, hEntry, entry_outerOver, entry_outerOver, entry_outerOver, entry_outerOver,
    h.entry_comm j i]
  ring

/-- The form of the update: completing the square along `s` leaves the form of `b`, and the new
image adds a square. -/
theorem form_secantUpdate (h : b.IsSymmetric) (hOld : dotInOrder s (b.mulVec s) ≠ 0)
    (r v : Vector ℝ n) :
    let rest := v - (dotInOrder v (b.mulVec s) / dotInOrder s (b.mulVec s)) * s
    dotInOrder v ((secantUpdate b s r).mulVec v) =
      dotInOrder rest (b.mulVec rest) + dotInOrder v r ^ 2 / dotInOrder s r := by
  intro rest
  have hSwap : dotInOrder s (b.mulVec v) = dotInOrder v (b.mulVec s) := by
    rw [h.dotInOrder_mulVec_comm, dotInOrder_comm]
  have hRest : dotInOrder rest (b.mulVec rest) = dotInOrder v (b.mulVec v) -
      dotInOrder v (b.mulVec s) ^ 2 / dotInOrder s (b.mulVec s) := by
    simp only [rest, mulVec_sub, mulVec_smul, sub_dotInOrder, dotInOrder_sub, smul_dotInOrder,
      dotInOrder_smul, hSwap]
    field_simp
    ring
  rw [hRest, mulVec_secantUpdate, dotInOrder_add, dotInOrder_sub, dotInOrder_smul, dotInOrder_smul,
    dotInOrder_comm r, dotInOrder_comm (b.mulVec s)]
  ring

/-- **The update of a positive definite matrix is positive definite** if the new image is at an
acute angle. -/
theorem isPositiveDefinite_secantUpdate (hSymmetric : b.IsSymmetric)
    (hPositive : b.IsPositiveDefinite) (hOld : dotInOrder s (b.mulVec s) ≠ 0)
    (hNew : 0 < dotInOrder s r) : (secantUpdate b s r).IsPositiveDefinite := by
  intro v hv
  obtain ⟨t, ht⟩ : ∃ t, t = dotInOrder v (b.mulVec s) / dotInOrder s (b.mulVec s) := ⟨_, rfl⟩
  rw [form_secantUpdate hSymmetric hOld, ← ht]
  by_cases hLine : v - t * s = 0
  · -- on the line the first square vanishes, and the second one does not
    obtain rfl : v = t * s := sub_eq_zero_iff.mp hLine
    have hNe : t ≠ 0 := by
      rintro rfl
      refine hv (euclidean_injective ?_)
      rw [euclidean_smul, zero_smul, euclidean_zero]
    rw [hLine, mulVec_zero, dotInOrder_zero, zero_add, smul_dotInOrder]
    exact div_pos (sq_pos_of_ne_zero (mul_ne_zero hNe (ne_of_gt hNew))) hNew
  · exact add_pos_of_pos_of_nonneg (hPositive _ hLine)
      (div_nonneg (sq_nonneg _) (le_of_lt hNew))

end Mat

end PlaneSketch
