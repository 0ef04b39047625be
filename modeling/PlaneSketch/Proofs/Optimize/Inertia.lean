import Mathlib.Tactic.NormNum.OfScientific
import PlaneSketch.Proofs.LinearAlgebra.Cholesky
import PlaneSketch.Proofs.Optimize.Exact
import PlaneSketch.Proofs.Optimize.Steps

/-!
# The inertia correction

A Hessian is shifted along its diagonal until it is positive definite.  The loop has no counter of
its own: it ends because the shifts grow by a factor from a positive start, and it misses no shift
that is worth a try because a matrix that is positive definite stays so under larger shifts.

* `Mat.IsPositiveDefinite.shift_mono`: larger shifts keep a matrix positive definite.
* `ShiftsTo`, `CorrectsTo`: the loop and the correction without a count of tries.
* `shiftsTo_shiftFrom`: **the count of tries is never what ends the loop.**
* `CorrectsTo.spec`: what a result is; `exists_refused_of_shiftsTo_none`: where the loop gives up
  it has tried a shift near the upper end.
* `correctInertia_complete`: **the correction ends, gives what it should and finds it if there is
  something to be found.**
* `isShift_of_mem_trail`: every state of a run holds a shift from which the next correction may
  start; `not_isPositiveDefinite_of_inertiaFailed`: a run gives up on a Hessian only if a large
  shift is not enough for it.
-/

namespace PlaneSketch

variable {m n : Nat}

/-! ## Shifted matrices -/

namespace Mat

variable {h : Mat ℝ n n}

theorem entry_shift (h : Mat ℝ n n) (delta : ℝ) (i j : Fin n) :
    (h.shift delta).entry i j = h.entry i j + delta * (identity n : Mat ℝ n n).entry i j := by
  simp [shift, entry]

theorem shift_zero (h : Mat ℝ n n) : h.shift 0 = h := by
  refine ext_entry fun i j => ?_
  rw [entry_shift, zero_mul, add_zero]

theorem IsSymmetric.shift (hSymmetric : h.IsSymmetric) (delta : ℝ) :
    (h.shift delta).IsSymmetric := by
  refine isSymmetric_iff.mpr fun i j => ?_
  rw [entry_shift, entry_shift, hSymmetric.entry_comm j i,
    (isSymmetric_identity (n := n)).entry_comm j i]

theorem smul_mulVec (delta : ℝ) (a : Mat ℝ m n) (v : Vector ℝ n) :
    Mat.mulVec (delta * a) v = delta * a.mulVec v := by
  refine Vector.ext fun i hi => ?_
  simp only [mulVec, Vector.getElem_map, Vector.getElem_hmul, smul_dotInOrder]

/-- A shift adds a multiple of the square of the length to the form of a matrix. -/
theorem dotInOrder_shift_mulVec (h : Mat ℝ n n) (delta : ℝ) (v : Vector ℝ n) :
    dotInOrder v ((h.shift delta).mulVec v) = dotInOrder v (h.mulVec v) + delta * normSq v := by
  rw [Mat.shift, add_mulVec, smul_mulVec, identity_mulVec, dotInOrder_add, dotInOrder_smul, normSq]

/-- **Larger shifts keep a matrix positive definite.** -/
theorem IsPositiveDefinite.shift_mono {delta larger : ℝ}
    (hPositive : (h.shift delta).IsPositiveDefinite) (hLe : delta ≤ larger) :
    (h.shift larger).IsPositiveDefinite := by
  intro v hv
  have hForm := hPositive v hv
  rw [dotInOrder_shift_mulVec] at hForm ⊢
  have hLength : 0 ≤ normSq v := by
    rw [normSq_eq]
    exact sq_nonneg _
  exact lt_of_lt_of_le hForm (add_le_add_right (mul_le_mul_of_nonneg_right hLe hLength) _)

end Mat

/-- The lower half of the Hessian is copied from the upper one. -/
theorem Problem.isSymmetric_lagrangianHessian (p : Problem ℝ n m) (multipliers : Vector ℝ m)
    (step : ℝ) (x : Vector ℝ n) : (p.lagrangianHessian multipliers step x).IsSymmetric := by
  refine Mat.isSymmetric_iff.mpr fun i j => ?_
  simp only [Problem.lagrangianHessian, Mat.entry_ofFn]
  rcases lt_trichotomy i j with h | rfl | h
  · simp only [if_pos (le_of_lt h), if_neg (not_le_of_gt h)]
  · rfl
  · simp only [if_pos (le_of_lt h), if_neg (not_le_of_gt h)]

namespace InteriorPoint

/-! ## The loop without a count -/

section Loop

variable {α : Type} [Scalar α] {k : Kernel α} {h : Mat α n n} {delta last : α}
  {result result' : Option (Mat α n n × α)}

/-- The loop over growing shifts ends with a result: beyond the upper end with none, else with the
first shift that makes the matrix positive definite. -/
inductive ShiftsTo (k : Kernel α) (h : Mat α n n) : α → Option (Mat α n n × α) → Prop
  | beyond {delta : α} (hEnd : ¬ delta ≤ maxShift) : ShiftsTo k h delta none
  | found {delta : α} (hEnd : delta ≤ maxShift)
      (hTest : k.isPositiveDefinite (h.shift delta) = true) :
      ShiftsTo k h delta (some (h.shift delta, delta))
  | refused {delta : α} {result : Option (Mat α n n × α)} (hEnd : delta ≤ maxShift)
      (hTest : ¬ k.isPositiveDefinite (h.shift delta) = true)
      (hNext : ShiftsTo k h (delta * shiftGrowth) result) : ShiftsTo k h delta result

/-- The shift that the loop tries first. -/
def startShift (last : α) : α :=
  if last ≤ 0 ∧ 0 ≤ last then firstShift else Scalar.larger (last / 3.0) minShift

/-- The correction ends with a result: the matrix itself if it is positive definite, else what the
loop ends with. -/
inductive CorrectsTo (k : Kernel α) (h : Mat α n n) (last : α) :
    Option (Mat α n n × α) → Prop
  | kept (hTest : k.isPositiveDefinite h = true) : CorrectsTo k h last (some (h, 0))
  | shifted {result : Option (Mat α n n × α)} (hTest : ¬ k.isPositiveDefinite h = true)
      (hLoop : ShiftsTo k h (startShift last) result) : CorrectsTo k h last result

/-- The loop has one result at most. -/
theorem ShiftsTo.unique (hResult : ShiftsTo k h delta result)
    (hResult' : ShiftsTo k h delta result') : result' = result := by
  induction hResult with
  | beyond hEnd =>
    cases hResult' with
    | beyond _ => rfl
    | found hEnd' _ => exact absurd hEnd' hEnd
    | refused hEnd' _ _ => exact absurd hEnd' hEnd
  | found hEnd hTest =>
    cases hResult' with
    | beyond hEnd' => exact absurd hEnd hEnd'
    | found _ _ => rfl
    | refused _ hTest' _ => exact absurd hTest hTest'
  | refused hEnd hTest _ ih =>
    cases hResult' with
    | beyond hEnd' => exact absurd hEnd hEnd'
    | found _ hTest' => exact absurd hTest' hTest
    | refused _ _ hNext' => exact ih hNext'

theorem CorrectsTo.unique (hResult : CorrectsTo k h last result)
    (hResult' : CorrectsTo k h last result') : result' = result := by
  cases hResult with
  | kept hTest =>
    cases hResult' with
    | kept _ => rfl
    | shifted hTest' _ => exact absurd hTest hTest'
  | shifted hTest hLoop =>
    cases hResult' with
    | kept hTest' => exact absurd hTest' hTest
    | shifted _ hLoop' => exact hLoop.unique hLoop'

end Loop

/-! ## The count of tries -/

section Real

variable {k : Kernel ℝ} {h h' : Mat ℝ n n} {delta last shift : ℝ}
  {result : Option (Mat ℝ n n × ℝ)}

/-- **A count of tries that reaches beyond the upper end is never what ends the loop.** -/
theorem shiftsTo_shiftFrom (count : Nat) (hCount : maxShift < delta * shiftGrowth ^ count) :
    ShiftsTo k h delta (shiftFrom k h count delta) := by
  induction count generalizing delta with
  | zero =>
    rw [pow_zero, mul_one] at hCount
    exact .beyond (not_le_of_gt hCount)
  | succ count ih =>
    rw [shiftFrom]
    split
    · next hEnd =>
      split
      · next hTest => exact .found hEnd hTest
      · next hTest =>
        refine .refused hEnd hTest (ih ?_)
        rwa [mul_assoc, ← pow_succ']
    · next hEnd => exact .beyond hEnd

theorem minShift_le_startShift (last : ℝ) : minShift ≤ startShift last := by
  rw [startShift]
  split
  · norm_num [minShift, firstShift]
  · rw [Scalar.larger_real]
    exact le_max_right _ _

theorem maxShift_lt_of_minShift_le (hDelta : minShift ≤ delta) :
    maxShift < delta * shiftGrowth ^ shiftCount := by
  have hReach : (maxShift : ℝ) < minShift * shiftGrowth ^ shiftCount := by
    norm_num [minShift, maxShift, shiftGrowth, shiftCount]
  have hGrowth : (0 : ℝ) ≤ shiftGrowth ^ shiftCount := by
    norm_num [shiftGrowth]
  exact lt_of_lt_of_le hReach (mul_le_mul_of_nonneg_right hDelta hGrowth)

/-- **The correction ends**, with what it gives. -/
theorem correctsTo_correctInertia (k : Kernel ℝ) (h : Mat ℝ n n) (last : ℝ) :
    CorrectsTo k h last (correctInertia k h last) := by
  rw [correctInertia]
  split
  · next hTest => exact .kept hTest
  · next hTest =>
    exact .shifted hTest
      (shiftsTo_shiftFrom shiftCount (maxShift_lt_of_minShift_le (minShift_le_startShift last)))

/-! ## The result -/

/-- A number from which a correction may start: zero, or in the range of the shifts. -/
def IsShift (last : ℝ) : Prop := last = 0 ∨ minShift ≤ last ∧ last ≤ maxShift

theorem minShift_pos : (0 : ℝ) < minShift := by norm_num [minShift]

theorem startShift_le_maxShift (hLast : IsShift last) : startShift last ≤ maxShift := by
  rw [startShift]
  split
  · norm_num [firstShift, maxShift]
  · rw [Scalar.larger_real]
    refine max_le ?_ (by norm_num [minShift, maxShift])
    rcases hLast with rfl | ⟨hLower, hUpper⟩
    · norm_num [maxShift]
    · have hThird : last / 3.0 ≤ last :=
        div_le_self (le_of_lt (lt_of_lt_of_le minShift_pos hLower)) (by norm_num)
      exact hThird.trans hUpper

/-- What the loop finds is a shift of the matrix that passes the test, by a number in the range. -/
theorem ShiftsTo.spec (hResult : ShiftsTo k h delta (some (h', shift)))
    (hDelta : minShift ≤ delta) :
    h' = h.shift shift ∧ k.isPositiveDefinite h' = true ∧ minShift ≤ shift ∧ shift ≤ maxShift := by
  generalize hSome : some (h', shift) = result at hResult
  induction hResult with
  | beyond _ => exact absurd hSome (by simp)
  | found hEnd hTest =>
    obtain ⟨rfl, rfl⟩ := Prod.mk.inj (Option.some.inj hSome)
    exact ⟨rfl, hTest, hDelta, hEnd⟩
  | @refused delta _ _ _ _ ih =>
    refine ih (hDelta.trans ?_) hSome
    exact le_mul_of_one_le_right (le_of_lt (lt_of_lt_of_le minShift_pos hDelta))
      (by norm_num [shiftGrowth])

/-- **What the correction gives**: the matrix shifted by zero if it passes the test itself, else by
a number in the range. -/
theorem CorrectsTo.spec (hResult : CorrectsTo k h last (some (h', shift))) :
    h' = h.shift shift ∧ k.isPositiveDefinite h' = true ∧ IsShift shift ∧
      (shift = 0 ↔ k.isPositiveDefinite h = true) := by
  cases hResult with
  | kept hTest =>
    rw [Mat.shift_zero]
    exact ⟨rfl, hTest, Or.inl rfl, fun _ => hTest, fun _ => rfl⟩
  | shifted hTest hLoop =>
    obtain ⟨hShift, hTest', hLower, hUpper⟩ := hLoop.spec (minShift_le_startShift last)
    have hNe : shift ≠ 0 := ne_of_gt (lt_of_lt_of_le minShift_pos hLower)
    exact ⟨hShift, hTest', Or.inr ⟨hLower, hUpper⟩, fun hZero => absurd hZero hNe,
      fun hKept => absurd hKept hTest⟩

theorem isPositiveDefinite_of_correctInertia (hKernel : k.TellsPositiveDefinite)
    (hSymmetric : h.IsSymmetric) (hSome : correctInertia k h last = some (h', shift)) :
    h'.IsPositiveDefinite := by
  obtain ⟨rfl, hTest, -⟩ := (hSome ▸ correctsTo_correctInertia k h last).spec
  exact (hKernel (hSymmetric.shift shift)).mp hTest

/-! ## Completeness -/

/-- **Where the loop gives up it has tried a shift near the upper end**: the last one, of which the
next one is beyond. -/
theorem exists_refused_of_shiftsTo_none (hResult : ShiftsTo k h delta none)
    (hDelta : delta ≤ maxShift) :
    ∃ last, maxShift < last * shiftGrowth ∧ ¬ k.isPositiveDefinite (h.shift last) = true := by
  generalize hNone : none = result at hResult
  induction hResult with
  | beyond hEnd => exact absurd hDelta hEnd
  | found _ _ => exact absurd hNone (by simp)
  | @refused delta _ _ hTest _ ih =>
    by_cases hNext : delta * shiftGrowth ≤ maxShift
    · exact ih hNext hNone
    · exact ⟨delta, lt_of_not_ge hNext, hTest⟩

/-- **If a shift by `10¹⁹` makes the matrix positive definite, the correction finds a shift.** -/
theorem correctInertia_isSome (hKernel : k.TellsPositiveDefinite) (hSymmetric : h.IsSymmetric)
    (hLast : IsShift last) (hPositive : (h.shift 1e19).IsPositiveDefinite) :
    ∃ h' shift, correctInertia k h last = some (h', shift) := by
  have hResult := correctsTo_correctInertia k h last
  cases hSome : correctInertia k h last with
  | some found => exact ⟨found.1, found.2, rfl⟩
  | none =>
    rw [hSome] at hResult
    cases hResult with
    | shifted _ hLoop =>
      obtain ⟨largest, hBeyond, hTest⟩ :=
        exists_refused_of_shiftsTo_none hLoop (startShift_le_maxShift hLast)
      have hLarge : 1e19 ≤ largest := by
        norm_num [maxShift, shiftGrowth] at hBeyond ⊢
        linarith
      exact absurd ((hKernel (hSymmetric.shift largest)).mpr (hPositive.shift_mono hLarge)) hTest

/-- **The correction ends, gives what it should and finds it if there is something to be found.**
The loop without a count of tries has one result, the one that the correction gives.  That is the
matrix with a shift on the diagonal, positive definite, and the shift, which is zero just for a
matrix that was positive definite already and from which the next correction may start.  It is
there whenever a shift by `10¹⁹` is enough. -/
theorem correctInertia_complete (hKernel : k.TellsPositiveDefinite) (hSymmetric : h.IsSymmetric)
    (hLast : IsShift last) :
    CorrectsTo k h last (correctInertia k h last) ∧
      (∀ result, CorrectsTo k h last result → result = correctInertia k h last) ∧
      (∀ h' shift, correctInertia k h last = some (h', shift) →
        h' = h.shift shift ∧ h'.IsPositiveDefinite ∧ (shift = 0 ↔ h.IsPositiveDefinite) ∧
          IsShift shift) ∧
      ((h.shift 1e19).IsPositiveDefinite →
        ∃ h' shift, correctInertia k h last = some (h', shift)) := by
  have hResult := correctsTo_correctInertia k h last
  refine ⟨hResult, fun _ => hResult.unique, fun h' shift hSome => ?_,
    correctInertia_isSome hKernel hSymmetric hLast⟩
  obtain ⟨hShift, -, hRange, hZero⟩ := (hSome ▸ hResult).spec
  exact ⟨hShift, isPositiveDefinite_of_correctInertia hKernel hSymmetric hSome,
    hZero.trans (hKernel hSymmetric), hRange⟩

/-- A matrix of one negative entry, after a shift by six. -/
theorem correctInertia_complete_negative :
    IsShift 6 ∧ ¬ Mat.IsPositiveDefinite #v[#v[-1]] ∧
      ∃ (h' : Mat ℝ 1 1) (shift : ℝ),
        correctInertia Kernel.cholesky #v[#v[-1]] 6 = some (h', shift) ∧
          h' = Mat.shift #v[#v[-1]] shift ∧ h'.IsPositiveDefinite ∧ shift ≠ 0 ∧ IsShift shift := by
  have hLast : IsShift 6 := Or.inr (by norm_num [minShift, maxShift])
  have hForm : ∀ v : Vector ℝ 1, dotInOrder v (Mat.mulVec #v[#v[-1]] v) = -normSq v := fun v => by
    simp [dotInOrder_real, get_mulVec, normSq, Mat.entry]
  have hPos : ∀ v : Vector ℝ 1, v ≠ 0 → 0 < normSq v := fun v hv => by
    have hIdentity := Mat.isPositiveDefinite_identity v hv
    rwa [Mat.identity_mulVec] at hIdentity
  have hNegative : ¬ Mat.IsPositiveDefinite #v[#v[-1]] := fun hPositive => by
    have hOne : (#v[1] : Vector ℝ 1) ≠ 0 := fun h => one_ne_zero (ext_get_iff.mp h 0)
    linarith [hPositive #v[1] hOne, hForm #v[1], hPos #v[1] hOne]
  have hShifted : (Mat.shift #v[#v[-1]] 1e19).IsPositiveDefinite := fun v hv => by
    rw [Mat.dotInOrder_shift_mulVec, hForm]
    linarith [hPos v hv]
  have hSymmetric : Mat.IsSymmetric (#v[#v[-1]] : Mat ℝ 1 1) :=
    Mat.ext_entry (Fin.forall_fin_one.mpr (Fin.forall_fin_one.mpr (Mat.entry_ofFn _ 0 0)))
  obtain ⟨-, -, hSpec, hFinds⟩ := correctInertia_complete
    Kernel.isExact_cholesky.tellsPositiveDefinite hSymmetric hLast
  obtain ⟨h', shift, hSome⟩ := hFinds hShifted
  obtain ⟨hShift, hPositive, hZero, hRange⟩ := hSpec h' shift hSome
  exact ⟨hLast, hNegative, h', shift, hSome, hShift, hPositive, mt hZero.mp hNegative, hRange⟩

end Real

/-! ## Runs -/

section Runs

variable {k : Kernel ℝ} {config : Config ℝ} {p : Problem ℝ n m} {s t : State ℝ n m}

theorem HasStep.isShift {shift : ℝ} {step : Vector ℝ n} {multipliers : Vector ℝ m}
    (hStep : HasStep k config p s shift step multipliers) : IsShift shift := by
  obtain ⟨hessian, direction, hInertia, -⟩ := hStep
  exact (hInertia ▸ correctsTo_correctInertia k _ s.lastShift).spec.2.2.1

theorem isShift_of_next (h : (iterate k config p s).2 = .next t) : IsShift t.lastShift := by
  cases decides_of_eq h with
  | searched hStep _ => exact hStep.isShift
  | restored hStep _ _ => exact hStep.isShift

/-- **Every state of a run holds a shift from which the next correction may start.** -/
theorem isShift_of_mem_trail {z : Iterate ℝ n m} {budget : Nat}
    (hs : s ∈ (method k config p).trail budget (start k config p z)) : IsShift s.lastShift :=
  Method.forall_mem_trail (P := fun s : State ℝ n m => IsShift s.lastShift) (Or.inl rfl)
    (fun _ _ _ => isShift_of_next) budget s hs

/-- **A run gives up on a Hessian only if a shift by `10¹⁹` does not make it positive definite.** -/
theorem not_isPositiveDefinite_of_inertiaFailed (hKernel : k.TellsPositiveDefinite)
    {z : Iterate ℝ n m} {budget : Nat}
    (hs : s ∈ (method k config p).trail budget (start k config p z))
    (hFailed : Note.inertiaFailed ∈ (iterate k config p s).1) :
    ¬ ((p.lagrangianHessian s.multipliers config.finiteDifferenceStep
      s.here.x).shift 1e19).IsPositiveDefinite := by
  intro hPositive
  obtain ⟨h', shift, hSome⟩ := correctInertia_isSome hKernel
    (p.isSymmetric_lagrangianHessian _ _ _) (isShift_of_mem_trail hs) hPositive
  revert hFailed
  rw [iterate]
  simp only [hSome]
  repeat' split
  all_goals simp

end Runs

end InteriorPoint

end PlaneSketch
