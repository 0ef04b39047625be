import PlaneSketch.Proofs.Optimize.Descent
import PlaneSketch.Proofs.Optimize.Inertia

/-!
# What the filter keeps out for good

An iterate that is entered in the filter keeps later trials away that are no better in either of
violation and objective, also after its entry has been replaced by others.

* `InteriorPoint.Enters`, `InteriorPoint.SearchEndsAt`: what an iteration does with its iterate and
  where its line search leads.
* `InteriorPoint.covers_of_enters`: **the filter of every later state covers the entry.**
* `InteriorPoint.norm1_pos_of_enters`: in exact arithmetic an iterate without residuals is never
  entered, since the step there aims at the objective.
* `InteriorPoint.never_readmits`: **no line search ends at or above an entered iterate.**
-/

namespace PlaneSketch

variable {n m : Nat}

namespace InteriorPoint

/-! ## Entering iterates -/

section Runs

variable {k : Kernel ℝ} {config : Config ℝ} {p : Problem ℝ n m} {s t : State ℝ n m}

/-- An iteration goes on and enters its iterate in the filter: it does not move along a step that
aims at the objective. -/
def Enters (k : Kernel ℝ) (config : Config ℝ) (p : Problem ℝ n m) (s : State ℝ n m) : Prop :=
  (∃ t, (iterate k config p s).2 = .next t) ∧
    ∀ shift step multipliers, HasStep k config p s shift step multipliers →
      aimsAtObjective s step = true → search p { s with lastShift := shift } step = none

/-- The line search along the step of a state ends at an iterate. -/
def SearchEndsAt (k : Kernel ℝ) (config : Config ℝ) (p : Problem ℝ n m) (s : State ℝ n m)
    (z : Iterate ℝ n m) : Prop :=
  ∃ shift step multipliers fraction, HasStep k config p s shift step multipliers ∧
    search p { s with lastShift := shift } step = some (fraction, z)

/-- An iteration leaves the filter as it is or enters its iterate. -/
theorem filter_of_next (h : (iterate k config p s).2 = .next t) :
    t.filter = s.filter ∨ t.filter = entered s := by
  cases decides_of_eq h with
  | searched _ _ =>
    rw [accept]
    simp only
    split
    · exact Or.inl rfl
    · exact Or.inr rfl
  | restored _ _ _ => exact Or.inr rfl

theorem filter_of_enters (hEnters : Enters k config p s)
    (h : (iterate k config p s).2 = .next t) : t.filter = entered s := by
  cases decides_of_eq h with
  | @searched shift fraction step multipliers z hStep hSearch =>
    have hAims : ¬ aimsAtObjective s step = true := fun hAims =>
      absurd (hSearch.symm.trans (hEnters.2 shift step multipliers hStep hAims)) (by simp)
    exact if_neg hAims
  | restored _ _ _ => rfl

/-- What a state of any run has: violations in its filter that are not negative, and a bound on
small violations that is not either. -/
structure State.IsProper (s : State ℝ n m) : Prop where
  filter : s.filter.Nonneg
  small : 0 ≤ s.smallViolation

theorem isProper_start (k : Kernel ℝ) (config : Config ℝ) (p : Problem ℝ n m)
    (z : Iterate ℝ n m) : (start k config p z).IsProper := by
  refine ⟨nonneg_filter_start z, mul_nonneg (by norm_num) ?_⟩
  rw [Scalar.larger_real]
  exact le_max_of_le_right zero_le_one

theorem isProper_of_next (hs : s.IsProper) (h : (iterate k config p s).2 = .next t) :
    t.IsProper := by
  constructor
  · rcases filter_of_next h with hFilter | hFilter
    · exact hFilter ▸ hs.filter
    · exact hFilter ▸ hs.filter.add (norm1_nonneg _) _
  · cases decides_of_eq h with
    | searched _ _ => exact hs.small
    | restored _ _ _ => exact hs.small

theorem isProper_of_mem_trail {z : Iterate ℝ n m} {budget : Nat}
    (hs : s ∈ (method k config p).trail budget (start k config p z)) : s.IsProper :=
  Method.forall_mem_trail (isProper_start k config p z) (fun _ _ => isProper_of_next) budget s hs

/-- **The filter of every state after an iterate was entered covers its entry.** -/
theorem covers_of_enters {first : State ℝ n m} {budget : Nat} {before after : List (State ℝ n m)}
    (hTrail : (method k config p).trail budget first = before ++ s :: after)
    (hEnters : Enters k config p s) :
    ∀ t ∈ after, t.filter.Covers
      (Filter.entry (norm1 s.here.residuals) (some s.here.objective)) := by
  refine Method.forall_mem_after hTrail (fun t hNext => ?_) fun t u ht hNext => ?_
  · rw [filter_of_enters hEnters hNext]
    exact Filter.covers_add_entry _ _ _
  · rcases filter_of_next hNext with hFilter | hFilter
    · exact hFilter ▸ ht
    · exact hFilter ▸ ht.add _ _

/-! ## Iterates without residuals -/

/-- Where there are no residuals, the step of an exact kernel descends or vanishes. -/
theorem eq_zero_or_descends (hKernel : k.IsExact) {shift : ℝ} {step : Vector ℝ n}
    {multipliers : Vector ℝ m} (hStep : HasStep k config p s shift step multipliers)
    (hResiduals : s.here.residuals = 0) : step = 0 ∨ dot s.gradient step < 0 := by
  obtain ⟨hessian, direction, hInertia, hSystem, hRange⟩ := hStep
  have hPositive : hessian.IsPositiveDefinite := isPositiveDefinite_of_correctInertia
    hKernel.tellsPositiveDefinite (p.isSymmetric_lagrangianHessian _ _ _) hInertia
  have hSolvable : ∃ y, s.jacobian.mulVec y = -s.here.residuals :=
    ⟨0, by rw [mulVec_zero, hResiduals, Vector.neg_zero neg_zero]⟩
  obtain ⟨hDual, hPrimal⟩ := hKernel.step_spec hPositive hSolvable hSystem hRange
  refine or_iff_not_imp_left.mpr fun hNe => ?_
  rw [dot_real, dotInOrder_gradient hDual hPrimal, hResiduals, dotInOrder_zero, zero_sub]
  exact neg_neg_of_pos (hPositive step hNe)

/-- **In exact arithmetic only iterates with residuals are entered.** -/
theorem norm1_pos_of_enters (hKernel : k.IsExact) (hTolerance : 0 ≤ config.constraintTolerance)
    (hs : s.IsProper) (hEnters : Enters k config p s) : 0 < norm1 s.here.residuals := by
  by_contra hNot
  have hResiduals : s.here.residuals = 0 := not_not.mp (mt norm1_pos hNot)
  obtain ⟨⟨t, hNext⟩, hBlocked⟩ := hEnters
  cases decides_of_eq hNext with
  | @searched shift fraction step multipliers z hStep hSearch =>
    rcases eq_zero_or_descends hKernel hStep hResiduals with rfl | hDescends
    · -- the run would have ended
      have hFeasible : isFeasible config s = true := by
        refine decide_eq_true ?_
        rw [Iterate.violation, hResiduals]
        exact maxAbs_zero_le (scaledTolerance_nonneg hTolerance _)
      have hStill : isNegligible s.here.x (0 : Vector ℝ n) = true := by
        refine decide_eq_true (maxAbs_zero_le (mul_nonneg (by norm_num) ?_))
        exact add_nonneg zero_le_one (zero_le_maxAbs _)
      exact absurd (hNext.symm.trans (iterate_of_isNegligible hStep hFeasible hStill)) (by simp)
    · -- the step would have aimed at the objective
      have hAims : aimsAtObjective s step = true := by
        rw [aimsAtObjective, hResiduals, norm1_zero, Bool.and_eq_true]
        exact ⟨decide_eq_true hDescends, decide_eq_true hs.small⟩
      exact absurd (hSearch.symm.trans (hBlocked shift step multipliers hStep hAims)) (by simp)
  | restored _ _ hRestore =>
    -- no residuals are smaller
    obtain ⟨step, fraction, -, -, hLess⟩ := exists_of_restoreFeasibility hRestore
    rw [hResiduals, norm1_zero, mul_zero] at hLess
    exact absurd hLess (not_lt_of_ge (norm1_nonneg _))

end Runs

/-- **What is entered in the filter stays out.**  After any history, a pair at or above one that was
entered with a positive violation is refused, whatever has been dropped; so no line search of a run
ends at or above an iterate entered earlier.  In exact arithmetic iterates without residuals are
no exception, for they are never entered. -/
theorem never_readmits :
    (∀ (before after : List (ℝ × Option ℝ)) (θ₀ φ₀ θ φ : ℝ),
      (∀ z ∈ before ++ (θ₀, some φ₀) :: after, 0 ≤ z.1) → 0 < θ₀ → θ₀ ≤ θ → φ₀ ≤ φ →
        (Filter.ofHistory (before ++ (θ₀, some φ₀) :: after)).acceptable θ φ = false) ∧
    ∀ {n m : Nat} (k : Kernel ℝ) (config : Config ℝ) (p : Problem ℝ n m) (x : Vector ℝ n)
      (before after : List (State ℝ n m)) (s t : State ℝ n m) (z : Iterate ℝ n m),
      (method k config p).trail config.maxIterations (start k config p (p.at x)) =
        before ++ s :: after →
      Enters k config p s → t ∈ after → SearchEndsAt k config p t z →
      0 < norm1 s.here.residuals ∨ k.IsExact ∧ 0 ≤ config.constraintTolerance →
        ¬ (norm1 s.here.residuals ≤ norm1 z.residuals ∧ s.here.objective ≤ z.objective) := by
  constructor
  · intro before after θ₀ φ₀ θ φ hHistory hPositive hθ hφ
    have hEntered : Filter.entry θ₀ (some φ₀) ∈
        Filter.allEntries (before ++ (θ₀, some φ₀) :: after) :=
      Filter.mem_allEntries.mpr
        ⟨(θ₀, some φ₀), List.mem_append_right _ List.mem_cons_self, rfl⟩
    exact Filter.acceptable_eq_false_of_covers hPositive (Filter.nonneg_ofHistory hHistory)
      (Filter.covers_ofHistory hEntered) hθ hφ
  · rintro n m k config p x before after s t z hTrail hEnters ht
      ⟨shift, step, multipliers, fraction, -, hSearch⟩ hCase ⟨hViolation, hObjective⟩
    have hProper : ∀ u ∈ s :: after, u.IsProper := fun u hu =>
      isProper_of_mem_trail (hTrail ▸ List.mem_append_right _ hu)
    have hPositive : 0 < norm1 s.here.residuals := by
      rcases hCase with hPositive | ⟨hKernel, hTolerance⟩
      · exact hPositive
      · exact norm1_pos_of_enters hKernel hTolerance (hProper s List.mem_cons_self) hEnters
    obtain ⟨-, -, hAdmits, -⟩ := exists_of_search hSearch
    have hRefuses := Filter.acceptable_eq_false_of_covers hPositive
      (hProper t (List.mem_cons_of_mem _ ht)).filter (covers_of_enters hTrail hEnters t ht)
      hViolation hObjective
    exact absurd (hAdmits.symm.trans hRefuses) (by simp)

/-! ### A constraint that is given twice -/

section Quadratic

variable {h : Mat ℝ n n} {q : Vector ℝ n} {r : ℝ} {a : Mat ℝ m n} {b : Vector ℝ m}
  {config : Config ℝ} {s : State ℝ n m}

/-- The search at the minimum of a quadratic ends where it stands. -/
theorem exists_searchEndsAt (hSees : Sees h q r a b s) (hProper : s.IsProper)
    (hSymmetric : h.IsSymmetric) (hPositive : h.IsPositiveDefinite) {μ : Vector ℝ m}
    (hOptimal : Optimality h q a b s.here.x μ) (hStep : config.finiteDifferenceStep ≠ 0) :
    ∃ z, SearchEndsAt Kernel.exact config (quadratic h q r a b) s z := by
  obtain ⟨step, multipliers, hHasStep, hDual, hPrimal⟩ := hSees.exists_hasStep Kernel.isExact_exact
    hSymmetric hPositive hStep ⟨s.here.x, hOptimal.primal⟩
  have hResiduals : ((quadratic h q r a b).at (s.here.x + step)).residuals = 0 :=
    sub_eq_zero_iff.mpr (optimality_add hDual hPrimal).primal
  have hAlong : a.mulVec step = 0 := by
    rw [hPrimal, sub_eq_zero_iff.mpr hOptimal.primal, Vector.neg_zero neg_zero]
  have hFlat : dot s.gradient step = 0 := by
    have hSum := congrArg (dotInOrder · step) hOptimal.dual
    simp only [add_dotInOrder _ (a.transpose.mulVec μ), Mat.dotInOrder_transpose_mulVec, hAlong,
      dotInOrder_zero, zero_dotInOrder, add_zero] at hSum
    rw [dot_real, hSees.gradient, hSum]
  refine ⟨_, 0, step, multipliers, 1, hHasStep,
    search_of_whole_step (along_one _ _ _) rfl ?_
      (decreasesEnough_of_residuals_zero hResiduals fun hAims => ?_)⟩
  · rw [hResiduals, norm1_zero]
    exact Filter.acceptable_zero hProper.filter _
  · have hDescends : dot s.gradient step < 0 :=
      of_decide_eq_true (Bool.and_eq_true_iff.mp hAims).1
    exact absurd hDescends (not_lt_of_ge (le_of_eq hFlat.symm))

end Quadratic

/-- A pair whose entry was dropped, and a run that enters its start in the filter. -/
theorem never_readmits_steep_bowl :
    (Filter.ofHistory Filter.steep).acceptable 200000 0 = false ∧
    ∃ (s t : State ℝ 2 2) (z : Iterate ℝ 2 2),
      let problem := quadratic bowl #v[-3, 0] 4.5 twice #v[2, 2]
      s = start Kernel.exact newton problem (problem.at #v[0, 0]) ∧
        (iterate Kernel.exact newton problem s).2 = .next t ∧
        SearchEndsAt Kernel.exact newton problem t z ∧
        ¬ (norm1 s.here.residuals ≤ norm1 z.residuals ∧ s.here.objective ≤ z.objective) := by
  constructor
  · exact never_readmits.1 [(1000000000, none)] [(20000, some (-1))] 100000 0 200000 0
      Filter.steep_nonneg (by norm_num) (by norm_num) le_rfl
  have hStep : newton.finiteDifferenceStep ≠ 0 := ne_of_gt admissible_newton.finiteDifferenceStep
  rcases iterate_start_quadratic (q := #v[-3, 0]) (r := 4.5) Kernel.isExact_exact isSymmetric_bowl
    isPositiveDefinite_bowl hStep exists_mulVec_twice (Or.inr far_from_line.1) with
    hConverged | ⟨t, hNext, hSees, hOptimal⟩
  · exact absurd (passes_of_converged hConverged).feasible (not_le_of_gt far_from_line.2)
  · have hEnters : Enters Kernel.exact newton _ _ :=
      ⟨⟨t, hNext⟩, fun shift step multipliers _ hAims =>
        absurd (hAims.symm.trans (aimsAtObjective_start_of_lt far_from_line.1)) (by simp)⟩
    have hTrail : (method Kernel.exact newton _).trail newton.maxIterations _ = [] ++ _ :: _ :=
      Method.trail_of_next hNext 99
    have hProper : t.IsProper := isProper_of_next (isProper_start _ _ _ _) hNext
    obtain ⟨z, hEnds⟩ := exists_searchEndsAt hSees hProper isSymmetric_bowl isPositiveDefinite_bowl
      hOptimal hStep
    refine ⟨_, t, z, rfl, hNext, hEnds, ?_⟩
    exact never_readmits.2 Kernel.exact newton _ #v[0, 0] [] _ _ t z hTrail hEnters
      (Method.trail_eq_cons 99 t ▸ List.mem_cons_self) hEnds
      (Or.inr ⟨Kernel.isExact_exact, admissible_newton.constraintTolerance⟩)

end InteriorPoint

end PlaneSketch
