import PlaneSketch.Proofs.LinearAlgebra.Update
import PlaneSketch.Proofs.Optimize.Newton

/-!
# The part of a step across the constraints

A step falls into a part in the null space of the linearised constraints and a part across it.  The
first one is what the model of the objective asks for; the second one is replaced by the shortest
Newton step towards the constraints, whatever the rank of their matrix.

* `IsRangeStep`: a step with its part across the null space replaced; `IsRangeStep.unique`: there
  is just one.
* `IsRangeStep.least`, `IsRangeStep.mulVec_eq`: it comes as close to the constraints as any step,
  and meets them if any step does.
* `isRangeStep_of_leastSquares`: two solutions of least squares make it.
* `Kernel.withRangeStep_isRangeStep`: **the correction gives this step**, for every matrix, every
  right-hand side and every step.
-/

namespace PlaneSketch

variable {m n : Nat}

/-- `q` is the step `p` with its part across the null space of `a` replaced by one that leads to
the point of the range next to `-c`. -/
structure IsRangeStep (a : Mat ℝ m n) (c : Vector ℝ m) (p q : Vector ℝ n) : Prop where
  null (v : Vector ℝ n) (hv : a.mulVec v = 0) : dotInOrder v q = dotInOrder v p
  projection : euclidean (a.mulVec q) = a.linear.range.starProjection (euclidean (-c))

section Step

variable {a : Mat ℝ m n} {c : Vector ℝ m} {p q q' newton range : Vector ℝ n}

theorem sub_neg_eq_add_vector (v w : Vector ℝ m) : v - -w = v + w := by
  refine euclidean_injective ?_
  rw [euclidean_sub, euclidean_neg, euclidean_add, sub_neg_eq_add]

/-- **No step comes closer to the constraints.** -/
theorem IsRangeStep.least (h : IsRangeStep a c p q) (y : Vector ℝ n) :
    normSq (a.mulVec q + c) ≤ normSq (a.mulVec y + c) := by
  have hProjection := h.projection
  rw [euclidean_mulVec] at hProjection
  have hError := linear_eq_starProjection_iff.mp hProjection
  rw [← sub_neg_eq_add_vector, ← sub_neg_eq_add_vector, normSq_mulVec_sub hError y]
  exact le_add_of_nonneg_left (sq_nonneg _)

/-- **The step meets the constraints if any step does**, whether the given one did or not. -/
theorem IsRangeStep.mulVec_eq (h : IsRangeStep a c p q) (hSolvable : ∃ y, a.mulVec y = c) :
    a.mulVec q = -c := by
  obtain ⟨y, hy⟩ := hSolvable
  have hMember : euclidean (-c) ∈ a.linear.range :=
    ⟨euclidean (-y), by rw [← euclidean_mulVec, mulVec_neg, hy]⟩
  refine euclidean_injective ?_
  rw [h.projection, Submodule.starProjection_eq_self_iff.mpr hMember]

/-- There is just one such step: the difference of two is in the null space and orthogonal to
it. -/
theorem IsRangeStep.unique (h : IsRangeStep a c p q) (h' : IsRangeStep a c p q') : q' = q := by
  have hImage : a.mulVec (q' - q) = 0 := by
    rw [mulVec_sub, sub_eq_zero_iff]
    exact euclidean_injective (h'.projection.trans h.projection.symm)
  have hSelf : dotInOrder (q' - q) (q' - q) = 0 := by
    rw [dotInOrder_sub, h'.null _ hImage, h.null _ hImage, sub_self]
  exact sub_eq_zero_iff.mp (dotInOrder_self_eq_zero.mp hSelf)

/-- **The Newton step of least norm and what it replaces**, each the solution of one system. -/
theorem isRangeStep_of_leastSquares (hNewton : IsLeastSquares a (-c) newton)
    (hRange : IsLeastSquares a (a.mulVec p) range) :
    IsRangeStep a c p (newton + p - range) := by
  obtain ⟨hError, hNull⟩ := hNewton.orthogonal
  obtain ⟨-, hNull'⟩ := hRange.orthogonal
  have hImage : a.mulVec (newton + p - range) = a.mulVec newton := by
    refine euclidean_injective ?_
    rw [mulVec_sub, mulVec_add, hRange.mulVec_eq rfl, euclidean_sub, euclidean_add,
      add_sub_cancel_right]
  refine ⟨fun v hv => ?_, ?_⟩
  · rw [dotInOrder_sub, dotInOrder_add, hNull v hv, hNull' v hv, zero_add, sub_zero]
  · rw [hImage, euclidean_mulVec]
    exact linear_eq_starProjection_iff.mpr hError

/-- Without constraints every step is as it should be. -/
theorem isRangeStep_of_no_rows (a : Mat ℝ 0 n) (c : Vector ℝ 0) (p : Vector ℝ n) :
    IsRangeStep a c p p :=
  ⟨fun _ _ => rfl, Subsingleton.elim _ _⟩

end Step

namespace Kernel

/-- **The correction replaces the part of a step across the constraints and nothing else.**  With
exact least squares it always succeeds.  Along the null space the step stays as it is; its image is
the projection of `-c`, so that no step comes closer to the constraints, and they are met if they
can be. -/
theorem withRangeStep_isRangeStep {k : Kernel ℝ} (hKernel : k.SolvesLeastSquares)
    (a : Mat ℝ m n) (c : Vector ℝ m) (p : Vector ℝ n) :
    ∃ q, k.withRangeStep a c p = some q ∧ IsRangeStep a c p q ∧
      (∀ y, normSq (a.mulVec q + c) ≤ normSq (a.mulVec y + c)) ∧
      ((∃ y, a.mulVec y = c) → a.mulVec q = -c) ∧
      ∀ q', IsRangeStep a c p q' → q' = q := by
  obtain ⟨q, hq, hStep⟩ : ∃ q, k.withRangeStep a c p = some q ∧ IsRangeStep a c p q := by
    rw [withRangeStep]
    split
    · next hm =>
      subst hm
      exact ⟨p, rfl, isRangeStep_of_no_rows a c p⟩
    · rw [if_pos (allFinite_real _)]
      exact ⟨_, rfl, isRangeStep_of_leastSquares (hKernel a (-c)) (hKernel a (a.mulVec p))⟩
  exact ⟨q, hq, hStep, hStep.least, hStep.mulVec_eq, fun _ => hStep.unique⟩

/-- Two rows that are the same, asked for two different values: the step from `(7, 0)` keeps the
difference of its entries and takes the sum that lies in the middle. -/
theorem withRangeStep_isRangeStep_twice :
    exact.SolvesLeastSquares ∧ (¬ ∃ y, twice.mulVec y = #v[-2, -4]) ∧
      exact.withRangeStep twice #v[-2, -4] #v[7, 0] = some #v[5, -2] := by
  refine ⟨isExact_exact.solvesLeastSquares, ?_, ?_⟩
  · rintro ⟨y, hy⟩
    rw [mulVec_twice] at hy
    have hFirst : y.get 0 + y.get 1 = -2 := ext_get_iff.mp hy 0
    have hSecond : y.get 0 + y.get 1 = -4 := ext_get_iff.mp hy 1
    linarith
  · obtain ⟨q, hq, hStep, hLeast, -⟩ :=
      withRangeStep_isRangeStep isExact_exact.solvesLeastSquares twice #v[-2, -4] #v[7, 0]
    have hDifference : q.get 0 - q.get 1 = 7 := by
      have hZero : twice.mulVec #v[1, -1] = 0 := by
        rw [mulVec_twice, ext_get_iff, Fin.forall_fin_two]
        exact ⟨add_neg_cancel 1, add_neg_cancel 1⟩
      have hNull := hStep.null #v[1, -1] hZero
      rw [dotInOrder_real, dotInOrder_real, Fin.sum_univ_two, Fin.sum_univ_two] at hNull
      change 1 * q.get 0 + -1 * q.get 1 = 1 * 7 + -1 * 0 at hNull
      linarith
    have hSum : q.get 0 + q.get 1 = 3 := by
      have hMiddle := hLeast #v[3, 0]
      simp only [mulVec_twice, normSq, dotInOrder_real, Fin.sum_univ_two, get_add] at hMiddle
      change (q.get 0 + q.get 1 + -2) * (q.get 0 + q.get 1 + -2) +
        (q.get 0 + q.get 1 + -4) * (q.get 0 + q.get 1 + -4) ≤
          (3 + 0 + -2) * (3 + 0 + -2) + (3 + 0 + -4) * (3 + 0 + -4) at hMiddle
      nlinarith [sq_nonneg (q.get 0 + q.get 1 - 3)]
    have hEntries : q = #v[5, -2] := by
      simp only [ext_get_iff, Fin.forall_fin_two]
      exact ⟨show q.get 0 = 5 by linarith, show q.get 1 = -2 by linarith⟩
    exact hEntries ▸ hq

end Kernel

end PlaneSketch
