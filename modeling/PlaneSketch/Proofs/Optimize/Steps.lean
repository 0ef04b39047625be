import PlaneSketch.Optimize.Minimize
import PlaneSketch.Proofs.Optimize.Trail

/-!
# What an iteration of a method decides

All that an iteration can decide is listed once for each method, with what has to hold for it.

* `Sqp.Decides`, `InteriorPoint.Decides`: the decisions; `decides_iterate` says that there are no
  others.
* `Sqp.HasStep`, `InteriorPoint.HasStep`: the step of a state; `iterate_of_search` says what follows
  when the search along it succeeds.
* `Sqp.Passes`, `InteriorPoint.Passes`: the test of convergence at a state.
* `Accepts`: one iterate follows another by a search along a step or by reducing the residuals.
* `iterates`: the iterates of a minimisation; `isChain_iterates` and `eq_at_of_mem_iterates` say
  where they come from and that each of them holds the values of the problem at its point.
-/

namespace PlaneSketch

variable {α : Type} [Scalar α] {n m : Nat} {k : Kernel α} {config : Config α}
  {p : Problem α n m}

/-! ## Searches -/

theorem exists_of_backtrackFrom {β : Type} {attempt : α → Option β} {count : Nat}
    {fraction : α} {result : β} (h : backtrackFrom attempt count fraction = some result) :
    ∃ fraction, attempt fraction = some result := by
  induction count generalizing fraction with
  | zero => exact absurd h (by simp [backtrackFrom])
  | succ count ih =>
    rw [backtrackFrom] at h
    split at h
    · next hAttempt => exact ⟨fraction, hAttempt.trans h⟩
    · exact ih h

theorem exists_of_backtrack {β : Type} {attempt : α → Option β} {result : β}
    (h : backtrack attempt = some result) : ∃ fraction, attempt fraction = some result :=
  exists_of_backtrackFrom h

theorem backtrack_of_first {β : Type} {attempt : α → Option β} {result : β}
    (h : attempt 1 = some result) : backtrack attempt = some result := by
  rw [backtrack, fractionCount, backtrackFrom, h]

/-- A reduction of the residuals ends at a fraction of a step, with a finite objective and smaller
residuals. -/
theorem exists_of_restoreFeasibility {y z : Iterate α n m} {a : Mat α m n}
    (h : k.restoreFeasibility p y a = some z) :
    ∃ step fraction, z = p.along y.x step fraction ∧ Scalar.isFinite z.objective = true ∧
      norm1 z.residuals < (1 - armijo * fraction) * norm1 y.residuals := by
  obtain ⟨fraction, h⟩ := exists_of_backtrack h
  obtain ⟨hTest, hTrial⟩ := Option.ite_none_right_eq_some.mp h
  obtain rfl := Option.some.inj hTrial
  rw [Bool.and_eq_true] at hTest
  exact ⟨_, fraction, rfl, hTest.1, of_decide_eq_true hTest.2⟩

/-! ## Sequential quadratic programming -/

namespace Sqp

variable {s : State α n m}

/-- A search ends at a fraction of the step, with a finite merit. -/
theorem exists_of_search {penalty : α} {step : Vector α n} {z : Iterate α n m}
    (h : search p penalty s step = some z) :
    ∃ fraction, z = p.along s.here.x step fraction ∧ Scalar.isFinite (merit penalty z) = true := by
  obtain ⟨fraction, h⟩ := exists_of_backtrack h
  obtain ⟨hTest, hTrial⟩ := Option.ite_none_right_eq_some.mp h
  obtain rfl := Option.some.inj hTrial
  rw [Bool.and_eq_true] at hTest
  exact ⟨fraction, rfl, hTest.1⟩

/-- The step and the multipliers that an iteration takes from its quadratic model. -/
def HasStep (k : Kernel α) (s : State α n m) (step : Vector α n) (multipliers : Vector α m) :
    Prop :=
  ∃ direction, k.solveKkt s.hessian s.jacobian s.gradient s.here.residuals =
      some (direction, multipliers) ∧
    k.withRangeStep s.jacobian s.here.residuals direction = some step

/-- What an iteration can decide. -/
inductive Decides (k : Kernel α) (config : Config α) (p : Problem α n m) (s : State α n m) :
    Decision (State α n m) → Prop where
  | singular (hNone : ∀ step multipliers, ¬ HasStep k s step multipliers) :
      Decides k config p s (.stuck false)
  | solution {step : Vector α n} {multipliers : Vector α m} (hStep : HasStep k s step multipliers)
      (hTest : isSolution config s step multipliers = true) :
      Decides k config p s .converged
  | searched {step : Vector α n} {multipliers : Vector α m} {z : Iterate α n m}
      (hStep : HasStep k s step multipliers) (hTest : ¬ isSolution config s step multipliers = true)
      (hSearch : search p (raisePenalty s.penalty multipliers) s step = some z) :
      Decides k config p s
        (.next (accept config p s (raisePenalty s.penalty multipliers) multipliers z))
  | restored {step : Vector α n} {multipliers : Vector α m} {z : Iterate α n m}
      (hStep : HasStep k s step multipliers) (hTest : ¬ isSolution config s step multipliers = true)
      (hSearch : search p (raisePenalty s.penalty multipliers) s step = none)
      (hRestore : k.restoreFeasibility p s.here s.jacobian = some z) :
      Decides k config p s
        (.next { start config p z with penalty := raisePenalty s.penalty multipliers })
  | exhausted {step : Vector α n} {multipliers : Vector α m}
      (hStep : HasStep k s step multipliers) (hTest : ¬ isSolution config s step multipliers = true)
      (hSearch : search p (raisePenalty s.penalty multipliers) s step = none)
      (hRestore : k.restoreFeasibility p s.here s.jacobian = none) :
      Decides k config p s (.stuck true)

theorem decides_iterate (k : Kernel α) (config : Config α) (p : Problem α n m)
    (s : State α n m) : Decides k config p s (iterate k config p s).2 := by
  rw [iterate]
  split
  · next hSystem =>
    refine .singular fun step multipliers hStep => ?_
    obtain ⟨direction, hSome, -⟩ := hStep
    simp [hSystem] at hSome
  · next direction multipliers hSystem =>
    split
    · next hRange =>
      refine .singular fun step multipliers' hStep => ?_
      obtain ⟨direction', hSome, hRange'⟩ := hStep
      rw [hSystem, Option.some.injEq, Prod.mk.injEq] at hSome
      simp [← hSome.1, hRange] at hRange'
    · next step hRange =>
      have hStep : HasStep k s step multipliers := ⟨direction, hSystem, hRange⟩
      split
      · next hTest => exact .solution hStep hTest
      · next hTest =>
        simp only
        split
        · next z hSearch => exact .searched hStep hTest hSearch
        · next hSearch =>
          split
          · next hRestore => exact .exhausted hStep hTest hSearch hRestore
          · next z hRestore => exact .restored hStep hTest hSearch hRestore

theorem decides_of_eq {decision : Decision (State α n m)}
    (h : (iterate k config p s).2 = decision) : Decides k config p s decision :=
  h ▸ decides_iterate k config p s

/-- A state passes the test of convergence with the step and the multipliers taken there. -/
def Passes (k : Kernel α) (config : Config α) (s : State α n m) : Prop :=
  ∃ step multipliers, HasStep k s step multipliers ∧ isSolution config s step multipliers = true

theorem passes_of_converged (h : (iterate k config p s).2 = .converged) : Passes k config s := by
  cases decides_of_eq h with
  | solution hStep hTest => exact ⟨_, _, hStep, hTest⟩

theorem iterate_of_isSolution {step : Vector α n} {multipliers : Vector α m}
    (hStep : HasStep k s step multipliers) (h : isSolution config s step multipliers = true) :
    (iterate k config p s).2 = .converged := by
  obtain ⟨direction, hSystem, hRange⟩ := hStep
  rw [iterate, hSystem]
  simp only [hRange]
  rw [if_pos h]

theorem iterate_of_search {step : Vector α n} {multipliers : Vector α m} {z : Iterate α n m}
    (hStep : HasStep k s step multipliers) (h : ¬ isSolution config s step multipliers = true)
    (hSearch : search p (raisePenalty s.penalty multipliers) s step = some z) :
    (iterate k config p s).2 =
      .next (accept config p s (raisePenalty s.penalty multipliers) multipliers z) := by
  obtain ⟨direction, hSystem, hRange⟩ := hStep
  rw [iterate, hSystem]
  simp only [hRange]
  rw [if_neg h]
  simp only [hSearch]

theorem HasStep.unique {step step' : Vector α n} {multipliers multipliers' : Vector α m}
    (h : HasStep k s step multipliers) (h' : HasStep k s step' multipliers') :
    step = step' ∧ multipliers = multipliers' := by
  obtain ⟨direction, hSystem, hRange⟩ := h
  obtain ⟨direction', hSystem', hRange'⟩ := h'
  rw [hSystem, Option.some.injEq, Prod.mk.injEq] at hSystem'
  rw [← hSystem'.1, hRange, Option.some.injEq] at hRange'
  exact ⟨hRange', hSystem'.2⟩

theorem Passes.feasible (h : Passes k config s) :
    s.here.violation ≤ scaledTolerance config.constraintTolerance s.here.x := by
  obtain ⟨step, multipliers, -, hTest⟩ := h
  rw [isSolution, Bool.and_eq_true] at hTest
  exact of_decide_eq_true hTest.1

end Sqp

/-! ## The interior-point method -/

namespace InteriorPoint

variable {s : State α n m}

/-- A search ends at a fraction of the step, with a finite objective that the filter admits and
with enough of a decrease. -/
theorem exists_of_search {step : Vector α n} {fraction : α} {z : Iterate α n m}
    (h : search p s step = some (fraction, z)) :
    z = p.along s.here.x step fraction ∧ Scalar.isFinite z.objective = true ∧
      s.filter.acceptable (norm1 z.residuals) z.objective = true ∧
      decreasesEnough s step fraction z = true := by
  obtain ⟨fraction', h⟩ := exists_of_backtrack h
  obtain ⟨hTest, hTrial⟩ := Option.ite_none_right_eq_some.mp h
  obtain ⟨rfl, rfl⟩ := Prod.mk.inj (Option.some.inj hTrial)
  rw [Bool.and_eq_true, Bool.and_eq_true, and_assoc] at hTest
  exact ⟨rfl, hTest⟩

/-- The step and the multipliers that an iteration takes from its shifted quadratic model, with the
shift. -/
def HasStep (k : Kernel α) (config : Config α) (p : Problem α n m) (s : State α n m)
    (shift : α) (step : Vector α n) (multipliers : Vector α m) : Prop :=
  ∃ hessian direction,
    correctInertia k (p.lagrangianHessian s.multipliers config.finiteDifferenceStep s.here.x)
      s.lastShift = some (hessian, shift) ∧
    k.solveKkt hessian s.jacobian s.gradient s.here.residuals = some (direction, multipliers) ∧
    k.withRangeStep s.jacobian s.here.residuals direction = some step

/-- What an iteration can decide. -/
inductive Decides (k : Kernel α) (config : Config α) (p : Problem α n m) (s : State α n m) :
    Decision (State α n m) → Prop where
  | stationary (hFeasible : isFeasible config s = true) (hTest : isStationary config s = true) :
      Decides k config p s .converged
  | singular (hTest : ¬ (isFeasible config s && isStationary config s) = true)
      (hNone : ∀ shift step multipliers, ¬ HasStep k config p s shift step multipliers) :
      Decides k config p s (.stuck false)
  | still {shift : α} {step : Vector α n} {multipliers : Vector α m}
      (hStep : HasStep k config p s shift step multipliers)
      (hFeasible : isFeasible config s = true) (hTest : isNegligible s.here.x step = true) :
      Decides k config p s .converged
  | searched {shift fraction : α} {step : Vector α n} {multipliers : Vector α m}
      {z : Iterate α n m} (hStep : HasStep k config p s shift step multipliers)
      (hSearch : search p { s with lastShift := shift } step = some (fraction, z)) :
      Decides k config p s
        (.next (accept config p { s with lastShift := shift } step multipliers fraction z))
  | restored {shift : α} {step : Vector α n} {multipliers : Vector α m} {z : Iterate α n m}
      (hStep : HasStep k config p s shift step multipliers)
      (hSearch : search p { s with lastShift := shift } step = none)
      (hRestore : k.restoreFeasibility p s.here s.jacobian = some z) :
      Decides k config p s (.next (restored k config p { s with lastShift := shift } z))
  | exhausted {shift : α} {step : Vector α n} {multipliers : Vector α m}
      (hStep : HasStep k config p s shift step multipliers)
      (hSearch : search p { s with lastShift := shift } step = none)
      (hRestore : k.restoreFeasibility p s.here s.jacobian = none) :
      Decides k config p s (.stuck true)

theorem decides_iterate (k : Kernel α) (config : Config α) (p : Problem α n m)
    (s : State α n m) : Decides k config p s (iterate k config p s).2 := by
  rw [iterate]
  split
  · next hTest =>
    rw [Bool.and_eq_true] at hTest
    exact .stationary hTest.1 hTest.2
  · next hTest =>
    simp only
    split
    · next hInertia =>
      refine .singular hTest fun shift step multipliers hStep => ?_
      obtain ⟨hessian, direction, hSome, -⟩ := hStep
      simp [hInertia] at hSome
    · next hessian shift hInertia =>
      split
      · next hSystem =>
        refine .singular hTest fun shift' step multipliers hStep => ?_
        obtain ⟨hessian', direction, hSome, hSystem', -⟩ := hStep
        rw [hInertia, Option.some.injEq, Prod.mk.injEq] at hSome
        simp [← hSome.1, hSystem] at hSystem'
      · next direction multipliers hSystem =>
        split
        · next hRange =>
          refine .singular hTest fun shift' step multipliers' hStep => ?_
          obtain ⟨hessian', direction', hSome, hSystem', hRange'⟩ := hStep
          rw [hInertia, Option.some.injEq, Prod.mk.injEq] at hSome
          rw [← hSome.1, hSystem, Option.some.injEq, Prod.mk.injEq] at hSystem'
          simp [← hSystem'.1, hRange] at hRange'
        · next step hRange =>
          have hStep : HasStep k config p s shift step multipliers :=
            ⟨hessian, direction, hInertia, hSystem, hRange⟩
          split
          · next hStill =>
            rw [Bool.and_eq_true] at hStill
            exact .still hStep hStill.1 hStill.2
          · split
            · next fraction z hSearch => exact .searched hStep hSearch
            · next hSearch =>
              split
              · next hRestore => exact .exhausted hStep hSearch hRestore
              · next z hRestore => exact .restored hStep hSearch hRestore

theorem decides_of_eq {decision : Decision (State α n m)}
    (h : (iterate k config p s).2 = decision) : Decides k config p s decision :=
  h ▸ decides_iterate k config p s

theorem HasStep.unique {shift shift' : α} {step step' : Vector α n}
    {multipliers multipliers' : Vector α m} (h : HasStep k config p s shift step multipliers)
    (h' : HasStep k config p s shift' step' multipliers') :
    shift = shift' ∧ step = step' ∧ multipliers = multipliers' := by
  obtain ⟨hessian, direction, hInertia, hSystem, hRange⟩ := h
  obtain ⟨hessian', direction', hInertia', hSystem', hRange'⟩ := h'
  rw [hInertia, Option.some.injEq, Prod.mk.injEq] at hInertia'
  rw [← hInertia'.1, hSystem, Option.some.injEq, Prod.mk.injEq] at hSystem'
  rw [← hSystem'.1, hRange, Option.some.injEq] at hRange'
  exact ⟨hInertia'.2, hRange', hSystem'.2⟩

/-- An iteration whose search succeeds passes the test or goes where the search has ended. -/
theorem iterate_of_search {shift fraction : α} {step : Vector α n} {multipliers : Vector α m}
    {z : Iterate α n m} (hStep : HasStep k config p s shift step multipliers)
    (hSearch : search p { s with lastShift := shift } step = some (fraction, z)) :
    (iterate k config p s).2 = .converged ∨ (iterate k config p s).2 =
      .next (accept config p { s with lastShift := shift } step multipliers fraction z) := by
  have hDecides := decides_iterate k config p s
  generalize (iterate k config p s).2 = decision at hDecides
  cases hDecides with
  | stationary _ _ => exact Or.inl rfl
  | still _ _ _ => exact Or.inl rfl
  | singular _ hNone => exact absurd hStep (hNone shift step multipliers)
  | searched hStep' hSearch' =>
    obtain ⟨rfl, rfl, rfl⟩ := hStep.unique hStep'
    rw [hSearch, Option.some.injEq, Prod.mk.injEq] at hSearch'
    obtain ⟨rfl, rfl⟩ := hSearch'
    exact Or.inr rfl
  | restored hStep' hSearch' _ =>
    obtain ⟨rfl, rfl, rfl⟩ := hStep.unique hStep'
    exact absurd (hSearch.symm.trans hSearch') (by simp)
  | exhausted hStep' hSearch' _ =>
    obtain ⟨rfl, rfl, rfl⟩ := hStep.unique hStep'
    exact absurd (hSearch.symm.trans hSearch') (by simp)

/-- A feasible state with a step that hardly moves it passes the test. -/
theorem iterate_of_isNegligible {shift : α} {step : Vector α n} {multipliers : Vector α m}
    (hStep : HasStep k config p s shift step multipliers) (hFeasible : isFeasible config s = true)
    (h : isNegligible s.here.x step = true) : (iterate k config p s).2 = .converged := by
  obtain ⟨hessian, direction, hInertia, hSystem, hRange⟩ := hStep
  have hTest : (isFeasible config { s with lastShift := shift } &&
      isNegligible s.here.x step) = true := Bool.and_eq_true_iff.mpr ⟨hFeasible, h⟩
  rw [iterate]
  split
  · rfl
  · simp only [hInertia, hSystem, hRange, if_pos hTest]

/-- A search takes the whole step if the filter admits it and it decreases enough. -/
theorem search_of_whole_step {step : Vector α n} {z : Iterate α n m}
    (hz : p.along s.here.x step 1 = z) (hFinite : Scalar.isFinite z.objective = true)
    (hAdmits : s.filter.acceptable (norm1 z.residuals) z.objective = true)
    (hEnough : decreasesEnough s step 1 z = true) : search p s step = some (1, z) := by
  subst hz
  refine backtrack_of_first (if_pos ?_)
  rw [Bool.and_eq_true, Bool.and_eq_true]
  exact ⟨⟨hFinite, hAdmits⟩, hEnough⟩

/-- A state passes the test of convergence: it is feasible, and either stationary with the
multipliers it has or the step that is taken there is negligible. -/
def Passes (k : Kernel α) (config : Config α) (p : Problem α n m) (s : State α n m) : Prop :=
  isFeasible config s = true ∧
    (isStationary config s = true ∨ ∃ shift step multipliers,
      HasStep k config p s shift step multipliers ∧ isNegligible s.here.x step = true)

theorem passes_of_converged (h : (iterate k config p s).2 = .converged) :
    Passes k config p s := by
  cases decides_of_eq h with
  | stationary hFeasible hTest => exact ⟨hFeasible, Or.inl hTest⟩
  | still hStep hFeasible hTest => exact ⟨hFeasible, Or.inr ⟨_, _, _, hStep, hTest⟩⟩

theorem Passes.feasible (h : Passes k config p s) :
    s.here.violation ≤ scaledTolerance config.constraintTolerance s.here.x :=
  of_decide_eq_true h.1

end InteriorPoint

/-! ## The iterates of a minimisation -/

/-- An iterate follows another one. -/
inductive Accepts (k : Kernel α) (p : Problem α n m) (y z : Iterate α n m) : Prop where
  /-- It is on a step and lowers the merit. -/
  | merit {s : Sqp.State α n m} {penalty : α} {step : Vector α n} (hHere : s.here = y)
      (h : Sqp.search p penalty s step = some z)
  /-- It is on a step and gets past the filter. -/
  | filter {s : InteriorPoint.State α n m} {step : Vector α n} {fraction : α} (hHere : s.here = y)
      (h : InteriorPoint.search p s step = some (fraction, z))
  /-- It has smaller residuals. -/
  | restoration {a : Mat α m n} (h : k.restoreFeasibility p y a = some z)

theorem Accepts.eq_at {y z : Iterate α n m} (h : Accepts k p y z) : z = p.at z.x := by
  cases h with
  | merit _ h =>
    obtain ⟨fraction, rfl, -⟩ := Sqp.exists_of_search h
    rfl
  | filter _ h =>
    obtain ⟨rfl, -⟩ := InteriorPoint.exists_of_search h
    rfl
  | restoration h =>
    obtain ⟨step, fraction, rfl, -⟩ := exists_of_restoreFeasibility h
    rfl

theorem Sqp.accepts_of_next {s t : State α n m} (h : (iterate k config p s).2 = .next t) :
    Accepts k p s.here t.here := by
  cases decides_of_eq h with
  | searched _ _ hSearch => exact .merit rfl hSearch
  | restored _ _ _ hRestore => exact .restoration hRestore

theorem InteriorPoint.accepts_of_next {s t : State α n m}
    (h : (iterate k config p s).2 = .next t) : Accepts k p s.here t.here := by
  cases decides_of_eq h with
  | searched _ hSearch =>
    refine .filter ?_ hSearch
    rfl
  | restored _ _ hRestore => exact .restoration hRestore

theorem Sqp.here_start (z : Iterate α n m) :
    (method k config p).here (start config p z) = z := rfl

theorem InteriorPoint.here_start (z : Iterate α n m) :
    (method k config p).here (start k config p z) = z := rfl

/-- The iterates that a minimisation visits, the one it starts from first. -/
def iterates (k : Kernel α) (config : Config α) (p : Problem α n m) (x : Vector α n) :
    List (Iterate α n m) :=
  match config.backend with
  | .sqp => (Sqp.method k config p).iterates config (Sqp.start config p) (p.at x)
  | .interiorPoint =>
    (InteriorPoint.method k config p).iterates config (InteriorPoint.start k config p) (p.at x)

theorem isChain_iterates (k : Kernel α) (config : Config α) (p : Problem α n m)
    (x : Vector α n) : (iterates k config p x).IsChain (Accepts k p) := by
  rw [iterates]
  split
  · exact Method.isChain_iterates fun s t hNext => Sqp.accepts_of_next hNext
  · exact Method.isChain_iterates fun s t hNext => InteriorPoint.accepts_of_next hNext

theorem head?_iterates (k : Kernel α) (config : Config α) (p : Problem α n m)
    (x : Vector α n) : (iterates k config p x).head? = some (p.at x) := by
  rw [iterates]
  split
  · exact Method.head?_iterates (Sqp.here_start _)
  · exact Method.head?_iterates (InteriorPoint.here_start _)

/-- **An iterate holds the values of the problem at its point.** -/
theorem eq_at_of_mem_iterates {x : Vector α n} {z : Iterate α n m}
    (hz : z ∈ iterates k config p x) : z = p.at z.x := by
  refine (isChain_iterates k config p x).induction (fun z => z = p.at z.x) _
    (fun _ _ hAccepts _ => hAccepts.eq_at) (fun hNe => ?_) z hz
  rw [(List.head_eq_iff_head?_eq_some hNe).mpr (head?_iterates k config p x)]
  rfl

end PlaneSketch
