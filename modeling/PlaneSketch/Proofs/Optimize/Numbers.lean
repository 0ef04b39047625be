import PlaneSketch.Proofs.Convergence
import PlaneSketch.Proofs.LinearAlgebra.Svd

/-!
# Where NaN comes from

On machine floats a run moves only to points where the objective is finite and no residual is NaN,
so what it gives back is its start or such a point.  For the interior-point method this takes a
start that is fit to be entered in the filter.  The test of convergence does not tell, since the
maximum norm passes over NaN: a run can converge at a start that shows NaN.

Three things keep NaN out.  The merit of sequential quadratic programming takes in every residual.
The filter of the interior-point method holds an entry without an objective, which only a smaller
violation gets past; a later entry leaves it or blocks as much, unless the objective entered is NaN
itself.  And a linear system with NaN on the right side has no finite solution, unless all of its
singular values are cut off.

* `isNumber_norm1_iff`: the sum of absolute values is NaN if an entry is.
* `Iterate.IsSound`: no residual is NaN, and the objective is finite.
* `Filter.Guarded`, `Filter.guarded_add`: a filter that no trial with NaN gets past.
* `eq_or_isSound_of_mem_iterates`: **every iterate of a run is its start or sound**, for the
  interior-point method if the start is enterable.
* `Sqp.isNumber_of_hasStep`: where a residual is NaN there is no first step, if its system keeps a
  singular value.
* `minimize_isNumber`: both of what a run gives back and of the equations after a solve.
* `minimize_converged_cusp`: the interior-point method can converge at NaN.
-/

namespace PlaneSketch

open Scalar

variable {n m : Nat}

/-! ## Sums -/

theorem zero_le_foldl {ι : Type} {f : ι → Float} {l : List ι} {sum : Float} (hSum : 0 ≤ sum)
    (hl : ∀ i ∈ l, 0 ≤ f i) : 0 ≤ l.foldl (fun sum i => sum + f i) sum := by
  induction l generalizing sum with
  | nil => exact hSum
  | cons i l ih =>
    obtain ⟨hi, hl⟩ := List.forall_mem_cons.mp hl
    exact ih (zero_le_add hSum hi) hl

theorem norm1_eq_foldl (v : Vector Float n) :
    norm1 v = v.toList.foldl (fun sum c => sum + Scalar.abs c) 0 := by
  rw [norm1, total, ← Vector.foldl_toList, Vector.toList_map, List.foldl_map]

/-- The sum of absolute values is NaN if an entry is. -/
theorem isNumber_norm1_iff {v : Vector Float n} :
    IsNumber (norm1 v) ↔ ∀ c ∈ v, IsNumber c := by
  rw [norm1_eq_foldl]
  constructor
  · intro h c hc
    exact isNumber_abs.mp ((isNumber_of_isNumber_foldl h).2 c (Vector.mem_toList_iff.mpr hc))
  · intro h
    refine Ordered.right (zero_le_foldl (Ordered.zero : (0 : Float) ≤ 0) fun c hc => ?_)
    exact zero_le_abs (h c (Vector.mem_toList_iff.mp hc))

/-! ## The filter -/

namespace Filter

/-- An entry whose objective no finite one gets below. -/
def Blocks (e : FilterEntry Float) : Prop :=
  match e.objective? with
  | some bound => IsMinusInfinity bound
  | none => True

/-- A filter that holds an entry that can be passed only with a smaller violation. -/
def Guarded (filter : Filter Float) : Prop := ∃ e ∈ filter, Blocks e

variable {filter : Filter Float} {violation objective : Float}

theorem isNumber_of_improves {e : FilterEntry Float} (he : Blocks e)
    (hObjective : Scalar.isFinite objective = true)
    (h : improves violation objective e = true) : IsNumber violation := by
  rw [improves, Bool.or_eq_true] at h
  rcases h with h | h
  · exact Ordered.left (of_decide_eq_true h)
  · rw [Blocks] at he
    split at h
    · next bound hBound =>
      rw [hBound] at he
      exact absurd (of_decide_eq_true h) (IsMinusInfinity.not_le_sub he hObjective _)
    · exact absurd h (by simp)

/-- **What a guarded filter lets pass has no NaN among its residuals.** -/
theorem isNumber_of_acceptable (hGuarded : Guarded filter)
    (hObjective : Scalar.isFinite objective = true)
    (h : acceptable filter violation objective = true) : IsNumber violation := by
  obtain ⟨e, he, hBlocks⟩ := hGuarded
  exact isNumber_of_improves hBlocks hObjective (List.all_eq_true.mp h e he)

/-- The entry for an iterate has an objective that is not NaN. -/
def HasBound (violation objective : Float) : Prop :=
  ∀ bound ∈ (entry violation (some objective)).objective?, IsNumber bound

theorem hasBound_of_isFinite (hObjective : Scalar.isFinite objective = true)
    (hViolation : IsNumber violation) : HasBound violation objective := by
  have hMargin : isRegular (1 - margin) = true := by decide +kernel
  have hMargin' : isRegular margin = true := by decide +kernel
  rintro _ ⟨⟩
  exact isNumber_sub_of_isFinite hObjective
    (isNumber_mul_of_isRegular hMargin' (isNumber_mul_of_isRegular hMargin hViolation))

theorem blocks_entry_of_not_survives {e : FilterEntry Float} (he : Blocks e)
    (hBound : HasBound violation objective)
    (h : ¬ survives (entry violation (some objective)) e = true) :
    Blocks (entry violation (some objective)) := by
  rw [survives, Bool.or_eq_true, not_or] at h
  rw [Blocks] at he ⊢
  split at he
  · next bound hSome =>
    refine he.of_not_lt (hBound _ rfl) fun hLess => h.2 ?_
    rw [hSome]
    exact decide_eq_true hLess
  · next hNone =>
    refine isMinusInfinity_of_not (hBound _ rfl) fun hAbove => h.2 ?_
    rw [hNone]
    exact hAbove

/-- Entering an iterate keeps the guard or replaces it. -/
theorem guarded_add (hGuarded : Guarded filter) (hBound : HasBound violation objective) :
    Guarded (filter.add violation (some objective)) := by
  obtain ⟨e, he, hBlocks⟩ := hGuarded
  by_cases h : survives (entry violation (some objective)) e = true
  · exact ⟨e, List.mem_append_left _ (List.mem_filter.mpr ⟨he, h⟩), hBlocks⟩
  · exact ⟨_, List.mem_append_right _ List.mem_cons_self,
      blocks_entry_of_not_survives hBlocks hBound h⟩

/-- An iterate whose objective is NaN takes the guard away and is dropped with the next one; then
NaN among the residuals does not stand in the way of a lower objective. -/
example : acceptable (add (add (add [] 1e4 none) 4 (some (0 / 0))) 2 (some 0))
    (0 / 0 : Float) (-1) = true := by
  decide +kernel

end Filter

/-! ## The iterates of a run -/

/-- An iterate at which no residual is NaN and the objective is finite. -/
structure Iterate.IsSound (z : Iterate Float n m) : Prop where
  objective : Scalar.isFinite z.objective = true
  residuals : ∀ c ∈ z.residuals, IsNumber c

/-- An iterate that does not take the guard out of a filter when it is entered.  Only an objective
that is NaN does, or one that is infinite together with the sum of the residuals. -/
def Iterate.IsEnterable (z : Iterate Float n m) : Prop :=
  (∀ c ∈ z.residuals, IsNumber c) → Filter.HasBound (norm1 z.residuals) z.objective

/-- A finite objective suffices, whatever the residuals are. -/
theorem Iterate.isEnterable_of_isFinite {z : Iterate Float n m}
    (h : Scalar.isFinite z.objective = true) : z.IsEnterable :=
  fun hResiduals => Filter.hasBound_of_isFinite h (isNumber_norm1_iff.mpr hResiduals)

section Iterates

variable {k : Kernel Float} {config : Config Float} {p : Problem Float n m}

/-- Reducing the residuals leads from a point where none is NaN to one that is sound. -/
theorem isSound_of_restoreFeasibility {y z : Iterate Float n m} {a : Mat Float m n}
    (h : k.restoreFeasibility p y a = some z) : z.IsSound ∧ ∀ c ∈ y.residuals, IsNumber c := by
  obtain ⟨step, fraction, -, hFinite, hLess⟩ := exists_of_restoreFeasibility h
  have hLe := Scalar.le_of_lt hLess
  exact ⟨⟨hFinite, isNumber_norm1_iff.mp (Ordered.left hLe)⟩,
    isNumber_norm1_iff.mp (isNumber_mul (Ordered.right hLe)).2⟩

namespace Sqp

/-- The merit of a trial that is taken is finite, so the trial is sound. -/
theorem isSound_of_search {s : State Float n m} {penalty : Float} {step : Vector Float n}
    {z : Iterate Float n m} (h : search p penalty s step = some z) : z.IsSound := by
  obtain ⟨fraction, -, hFinite⟩ := exists_of_search h
  obtain ⟨hObjective, hPenalty⟩ := isFinite_add hFinite
  exact ⟨hObjective, isNumber_norm1_iff.mp (isNumber_mul (isNumber_of_isFinite hPenalty)).2⟩

theorem isSound_of_next {s t : State Float n m} (h : (iterate k config p s).2 = .next t) :
    t.here.IsSound := by
  cases decides_of_eq h with
  | searched _ _ hSearch => exact isSound_of_search hSearch
  | restored _ _ _ hRestore => exact (isSound_of_restoreFeasibility hRestore).1

end Sqp

namespace InteriorPoint

/-- A state that can be entered in its filter, which keeps out all trials with NaN. -/
structure State.IsGuarded (s : State Float n m) : Prop where
  enterable : s.here.IsEnterable
  guarded : Filter.Guarded s.filter

theorem isGuarded_start {z : Iterate Float n m} (h : z.IsEnterable) :
    (start k config p z).IsGuarded :=
  ⟨h, _, List.mem_singleton_self _, trivial⟩

/-- No trial improves on a violation that is NaN, so a search that ends has none at its start. -/
theorem isNumber_of_search {s : State Float n m} {step : Vector Float n} {fraction : Float}
    {z : Iterate Float n m} (h : search p s step = some (fraction, z)) :
    ∀ c ∈ s.here.residuals, IsNumber c := by
  obtain ⟨-, -, -, hDecreases⟩ := exists_of_search h
  refine isNumber_norm1_iff.mp ?_
  rw [decreasesEnough] at hDecreases
  split at hDecreases
  · next hAims =>
    rw [aimsAtObjective, Bool.and_eq_true] at hAims
    exact Ordered.left (of_decide_eq_true hAims.2)
  · rw [Bool.or_eq_true, decide_eq_true_iff, decide_eq_true_iff] at hDecreases
    rcases hDecreases with hViolation | hObjective
    · exact (isNumber_mul (Ordered.right hViolation)).2
    · exact (isNumber_mul (isNumber_sub (Ordered.right hObjective)).2).2

theorem isSound_of_search {s : State Float n m} {step : Vector Float n} {fraction : Float}
    {z : Iterate Float n m} (hGuarded : Filter.Guarded s.filter)
    (h : search p s step = some (fraction, z)) : z.IsSound := by
  obtain ⟨-, hFinite, hAcceptable, -⟩ := exists_of_search h
  exact ⟨hFinite,
    isNumber_norm1_iff.mp (Filter.isNumber_of_acceptable hGuarded hFinite hAcceptable)⟩

theorem guarded_entered {s : State Float n m} (h : s.IsGuarded)
    (hResiduals : ∀ c ∈ s.here.residuals, IsNumber c) : Filter.Guarded (entered s) :=
  Filter.guarded_add h.guarded (h.enterable hResiduals)

/-- One iteration leads from a guarded state to a sound one and keeps the guard. -/
theorem isGuarded_of_next {s t : State Float n m} (hs : s.IsGuarded)
    (h : (iterate k config p s).2 = .next t) : t.IsGuarded ∧ t.here.IsSound := by
  cases decides_of_eq h with
  | @searched shift fraction step multipliers z _ hSearch =>
    have hSound : z.IsSound := isSound_of_search hs.guarded hSearch
    refine ⟨⟨Iterate.isEnterable_of_isFinite hSound.objective, ?_⟩, hSound⟩
    rw [accept]
    simp only
    split
    · exact hs.guarded
    · exact guarded_entered (s := { s with lastShift := shift }) ⟨hs.enterable, hs.guarded⟩
        (isNumber_of_search hSearch)
  | @restored shift step multipliers z _ _ hRestore =>
    obtain ⟨hSound, hResiduals⟩ := isSound_of_restoreFeasibility hRestore
    exact ⟨⟨Iterate.isEnterable_of_isFinite hSound.objective,
      guarded_entered (s := { s with lastShift := shift }) ⟨hs.enterable, hs.guarded⟩ hResiduals⟩,
      hSound⟩

end InteriorPoint

/-- **Every iterate of a run is its start or sound**, for the interior-point method if the start is
enterable. -/
theorem eq_or_isSound_of_mem_iterates {x : Vector Float n}
    (hx : config.backend = .interiorPoint → (p.at x).IsEnterable) :
    ∀ y ∈ iterates k config p x, y = p.at x ∨ y.IsSound := by
  rw [iterates]
  split
  · exact Method.forall_mem_iterates (P := fun s => s.here = p.at x ∨ s.here.IsSound) (Or.inl rfl)
      (Or.inl rfl) (fun s t _ h => Or.inr (Sqp.isSound_of_next h)) fun s hs => hs
  · next hBackend =>
    refine Method.forall_mem_iterates
      (P := fun s => s.IsGuarded ∧ (s.here = p.at x ∨ s.here.IsSound)) (Or.inl rfl)
      ⟨InteriorPoint.isGuarded_start (hx hBackend), Or.inl rfl⟩ (fun s t hs h => ?_)
      fun s hs => hs.2
    obtain ⟨hGuarded, hSound⟩ := InteriorPoint.isGuarded_of_next hs.1 h
    exact ⟨hGuarded, Or.inr hSound⟩

theorem eq_or_isSound_minimize {x : Vector Float n}
    (hx : config.backend = .interiorPoint → (p.at x).IsEnterable) :
    (minimize k config p x).minimization.x = x ∨
      (p.at (minimize k config p x).minimization.x).IsSound := by
  obtain ⟨w, hw, converged, iterations, hRun, -⟩ := exists_minimize_eq k config p x
  rw [hRun, Best.toMinimization, Best.ofIterate]
  rcases eq_or_isSound_of_mem_iterates hx w hw with rfl | hSound
  · exact Or.inl rfl
  · exact Or.inr (eq_at_of_mem_iterates hw ▸ hSound)

/-- The condition on the start cannot be dropped.  From zero, where the objective `-x · (x / x)` is
NaN, the interior-point method goes on without a guard, with a kernel that answers by ones
throughout to a point where the residual `√(16 - 12 · x)` is NaN. -/
example :
    let x : Expression Float 1 := .coordinate 0
    let p : Problem Float 1 1 := .ofExpressions (.neg (.mul x (.div x x)))
      #v[.sqrt (.sub (.constant 16) (.mul (.constant 12) x))]
    ¬ IsNumber (p.residuals (minimize ⟨fun _ _ => Vector.replicate _ 1, fun _ => true⟩
      { Config.default with backend := .interiorPoint } p #v[0]).minimization.x)[0] := by
  decide +kernel

end Iterates

/-! ## Linear systems -/

namespace Sqp

variable {config : Config Float} {p : Problem Float n m} {x : Vector Float n}

/-- The matrix of the first step of a run. -/
def firstSystem (config : Config Float) (p : Problem Float n m) (x : Vector Float n) :
    Mat Float (n + m) (n + m) :=
  let s := start config p (p.at x)
  Mat.blocks s.hessian s.jacobian.transpose s.jacobian 0

/-- Where a residual is NaN there is no first step, if its system keeps a singular value. -/
theorem isNumber_of_hasStep (hn : n ≠ 0) (hKeeps : Svd.Keeps (firstSystem config p x))
    {step : Vector Float n} {multipliers : Vector Float m}
    (h : HasStep Kernel.float (start config p (p.at x)) step multipliers) :
    ∀ c ∈ p.residuals x, IsNumber c := by
  obtain ⟨direction, hSystem, -⟩ := h
  rw [Kernel.solveKkt] at hSystem
  obtain ⟨hFinite, -⟩ := Option.ite_none_right_eq_some.mp hSystem
  intro c hc
  by_contra hNaN
  refine Svd.not_allFinite_solve (by omega) (le_refl _) hKeeps (c := -c) ?_
    (isNumber_neg.not.mpr hNaN) hFinite
  obtain ⟨i, hi, rfl⟩ := Vector.getElem_of_mem hc
  rw [Vector.mem_append, ← Vector.getElem_neg]
  exact Or.inr (Vector.getElem_mem _)

/-- Then a run that converges starts where no residual is NaN. -/
theorem isNumber_of_converged (hn : n ≠ 0) (hKeeps : Svd.Keeps (firstSystem config p x))
    (h : ((method Kernel.float config p).run config (start config p)
      (p.at x)).minimization.converged = true) : ∀ c ∈ p.residuals x, IsNumber c := by
  have hNot := Method.iterate_start_ne_stuck hn h
  have hDecides := decides_iterate Kernel.float config p (start config p (p.at x))
  generalize hDecision : (iterate Kernel.float config p (start config p (p.at x))).2 = decision
    at hDecides
  cases hDecides with
  | singular => exact absurd hDecision (hNot false)
  | solution hStep => exact isNumber_of_hasStep hn hKeeps hStep
  | searched hStep => exact isNumber_of_hasStep hn hKeeps hStep
  | restored hStep => exact isNumber_of_hasStep hn hKeeps hStep
  | exhausted => exact absurd hDecision (hNot true)

end Sqp

theorem isNumber_of_sqp_converged {config : Config Float} (hBackend : config.backend = .sqp)
    (hn : n ≠ 0) {p : Problem Float n m} {x : Vector Float n}
    (h : (minimize Kernel.float config p x).minimization.converged = true)
    (hKeeps : Svd.Keeps (Sqp.firstSystem config p x)) :
    ∀ c ∈ p.residuals (minimize Kernel.float config p x).minimization.x, IsNumber c := by
  have hMethod : ¬ config.backend = .interiorPoint := by simp [hBackend]
  rcases eq_or_isSound_minimize (k := Kernel.float) (p := p) (x := x)
    fun hInterior => absurd hInterior hMethod with hStart | hSound
  · rw [hStart]
    rw [minimize, hBackend] at h
    exact Sqp.isNumber_of_converged hn hKeeps h
  · exact hSound.residuals

/-! ## What is given back -/

namespace Solve

/-- The equations that a solve hands to the method have values that are not NaN. -/
def ShowsNumbers (s : Sketch Float) (l : Linkage Float) (g : Geometry Float) : Prop :=
  ∀ c ∈ s.constraints.items, ¬ l.isInactive s.geometry c = true →
    ∀ b, Residual.bind s.geometry c.kind c.operands = .ok (some b) → IsNumber (b.value g)

variable {s : Sketch Float} {l : Linkage Float} {residuals : List (Residual Float)}
  {inactive : Nat}

theorem showsNumbers_of_bindAll
    (hAll : bindAll s.geometry l s.constraints.items = .ok (residuals, inactive))
    {g : Geometry Float} (h : ∀ c ∈ residualValues residuals g, IsNumber c) :
    ShowsNumbers s l g :=
  fun _ hc hActive _ hBind =>
    h _ (value_mem_residualValues (mem_of_bindAll hAll hc hActive hBind) g)

/-- Without a dragged point there is no objective that could be NaN. -/
theorem isEnterable_problem_none (g : Geometry Float) (l : Linkage Float)
    (residuals : List (Residual Float)) {n : Nat} (x : Vector Float n) :
    ((problem g l residuals none n).at x).IsEnterable :=
  Iterate.isEnterable_of_isFinite (show Scalar.isFinite (0 : Float) = true by decide +kernel)

end Solve

namespace Solve

variable {k : Kernel Float} {config : Config Float} {s : Sketch Float} {active : Option PointRef}
  {r : Solved Float}

theorem eq_or_showsNumbers_of_run (h : run k config s active = .ok r) :
    ∃ l residuals inactive, Linkage.build s.geometry s.constraints.items active = .ok l ∧
      bindAll s.geometry l s.constraints.items = .ok (residuals, inactive) ∧
      ((config.backend = .interiorPoint → active ≠ none →
        ((problem s.geometry l residuals (snapshot? s.geometry active)
          (l.gather s.geometry).size).at (l.gather s.geometry).toVector).IsEnterable) →
        r.sketch.geometry = l.scatter s.geometry (l.gather s.geometry) ∨
          ShowsNumbers s l r.sketch.geometry) := by
  obtain ⟨l, residuals, inactive, hBuild, hAll, rfl⟩ := (run_eq_ok_iff r).mp h
  refine ⟨l, residuals, inactive, hBuild, hAll, fun hEnterable => ?_⟩
  rw [outcome]
  split
  · exact Or.inl rfl
  · have hx : config.backend = .interiorPoint →
        ((problem s.geometry l residuals (snapshot? s.geometry active)
          (l.gather s.geometry).size).at (l.gather s.geometry).toVector).IsEnterable := by
      intro hBackend
      cases active with
      | none => exact isEnterable_problem_none s.geometry l residuals _
      | some point => exact hEnterable hBackend (by simp)
    rcases eq_or_isSound_minimize (k := k) hx with hStart | hSound
    · exact Or.inl (congrArg (fun x => l.scatter s.geometry x.toArray) hStart :)
    · exact Or.inr (showsNumbers_of_bindAll hAll hSound.residuals)

theorem showsNumbers_of_converged (hBackend : config.backend = .sqp)
    (h : run Kernel.float config s active = .ok r) (hFree : r.report.degreesOfFreedom ≠ 0)
    (hConverged : r.report.converged = true) :
    ∃ l residuals inactive, Linkage.build s.geometry s.constraints.items active = .ok l ∧
      bindAll s.geometry l s.constraints.items = .ok (residuals, inactive) ∧
      (Svd.Keeps (Sqp.firstSystem config (problem s.geometry l residuals
        (snapshot? s.geometry active) (l.gather s.geometry).size) (l.gather s.geometry).toVector) →
        ShowsNumbers s l r.sketch.geometry) := by
  obtain ⟨l, residuals, inactive, hBuild, hAll, hSize, hRun, hGeometry⟩ :=
    exists_minimize_of_run h hFree
  refine ⟨l, residuals, inactive, hBuild, hAll, fun hKeeps => ?_⟩
  rw [hGeometry]
  exact showsNumbers_of_bindAll hAll
    (isNumber_of_sqp_converged hBackend hSize (hRun.symm.trans hConverged) hKeeps)

end Solve

/-- A segment on the axis with a fixed start, which is to be of length 5. -/
def rail : Sketch Float :=
  ⟨⟨[⟨⟨0⟩, ⟨0, 0⟩, ⟨5, 0⟩⟩], []⟩,
    ⟨[⟨⟨0⟩, .fixed, [.point ⟨⟨0⟩, .start⟩]⟩, ⟨⟨1⟩, .horizontality, [.segment ⟨0⟩]⟩,
      ⟨⟨2⟩, .length, [.segment ⟨0⟩, .value 5]⟩], .zero⟩⟩

/-- What is solved for, also when the end is dragged. -/
def railLinkage (active : Option PointRef) : Linkage Float :=
  match Linkage.build rail.geometry rail.constraints.items active with
  | .ok l => l
  | .error _ => ⟨[], 0, 0⟩

theorem build_rail {active : Option PointRef} (h : active = none ∨ active = some (.stop ⟨0⟩)) :
    Linkage.build rail.geometry rail.constraints.items active = .ok (railLinkage active) ∧
      ∃ inactive, Solve.bindAll rail.geometry (railLinkage active) rail.constraints.items =
        .ok ([.segmentLength 0 5], inactive) := by
  rcases h with rfl | rfl
  · exact ⟨rfl, _, rfl⟩
  · exact ⟨rfl, _, rfl⟩

/-- The number of free coordinates; it is one, the horizontal one of the end. -/
abbrev railFreedom : Nat := ((railLinkage none).gather rail.geometry).size

theorem railFreedom_ne_zero : railFreedom ≠ 0 := by decide +kernel

def railProblem : Problem Float railFreedom 1 :=
  Solve.problem rail.geometry (railLinkage none) [.segmentLength 0 5] none railFreedom

def railPoint : Vector Float railFreedom := ((railLinkage none).gather rail.geometry).toVector

def railStart : Sqp.State Float railFreedom 1 :=
  Sqp.start Config.default railProblem (railProblem.at railPoint)

/-- The matrix of the first step. -/
def railSystem : Mat Float (railFreedom + 1) (railFreedom + 1) :=
  Sqp.firstSystem Config.default railProblem railPoint

/-- Its diagonal form. -/
def railForm : Svd.State :=
  Svd.diagonalise (Bidiagonal.ofColumns Floats.dot Floats.dotInOrder (railFreedom + 1)
    (Svd.scaledColumns 1 railSystem))

theorem mergeSort_pair {β : Type} (le : β → β → Bool) (a b : β) :
    [a, b].mergeSort le = if le a b then [a, b] else [b, a] := by
  simp [List.mergeSort, List.MergeSort.Internal.splitInTwo, List.merge]

/-- The singular values are sorted by a recursion that does not evaluate. -/
theorem decompose_railSystem :
    Svd.decompose railSystem =
      if (Svd.triple 1 railForm 1).value <= (Svd.triple 1 railForm 0).value then
        [Svd.triple 1 railForm 0, Svd.triple 1 railForm 1]
      else [Svd.triple 1 railForm 1, Svd.triple 1 railForm 0] := by
  have hScale : Svd.scaleOf railSystem = 1 := by decide +kernel
  have hSize : railForm.diagonal.size = 2 := by decide +kernel
  rw [Svd.decompose, hScale, if_pos (le_refl _)]
  change Svd.triples 1 railForm = _
  rw [Svd.triples, hSize]
  exact (mergeSort_pair ..).trans (by simp)

theorem keeps_railSystem : Svd.Keeps railSystem := by
  rw [Svd.Keeps, decompose_railSystem]
  decide +kernel

theorem leastSquares_railSystem : Kernel.float.leastSquares railSystem
    (-railStart.gradient ++ -railStart.here.residuals) =
      (0 : Vector Float railFreedom) ++ (0 : Vector Float 1) := by
  have hShape : ¬ (railFreedom + 1 = 0 ∨ railFreedom + 1 = 0) := by decide +kernel
  have hFinite : ¬ (!railSystem.all allFinite) = true := by decide +kernel
  change Svd.solve railSystem _ = _
  rw [Svd.solve, if_neg hShape, if_neg hFinite, decompose_railSystem]
  decide +kernel

theorem iterate_railStart :
    (Sqp.iterate Kernel.float Config.default railProblem railStart).2 = .converged := by
  have hStep : Sqp.HasStep Kernel.float railStart 0 0 :=
    ⟨0, Kernel.solveKkt_of_leastSquares leastSquares_railSystem (by decide +kernel),
      by decide +kernel⟩
  exact Sqp.iterate_of_isSolution hStep (by decide +kernel)

theorem converged_rail :
    (minimize Kernel.float Config.default railProblem railPoint).minimization.converged = true :=
  congrArg Minimization.converged (Method.minimization_run_of_start railFreedom_ne_zero
    (show 100 ≠ 0 by decide) (Sqp.here_start _) iterate_railStart)

theorem exists_run_rail : ∃ r, Solve.run Kernel.float Config.default rail none = .ok r ∧
    r.report.degreesOfFreedom ≠ 0 ∧ r.report.converged = true := by
  obtain ⟨hBuild, inactive, hAll⟩ := build_rail (Or.inl rfl)
  refine ⟨_, (Solve.run_eq_ok_iff _).mpr ⟨_, _, _, hBuild, hAll, rfl⟩, ?_⟩
  rw [Solve.outcome, if_neg railFreedom_ne_zero]
  exact ⟨railFreedom_ne_zero, converged_rail⟩

theorem isNumber_of_showsNumbers_rail {active : Option PointRef}
    (hActive : ¬ (railLinkage active).isInactive rail.geometry
      ⟨⟨2⟩, .length, [.segment ⟨0⟩, .value 5]⟩ = true) {g : Geometry Float}
    (h : Solve.ShowsNumbers rail (railLinkage active) g) :
    IsNumber ((Residual.segmentLength 0 5).value g) :=
  h _ (List.mem_cons_of_mem _ (List.mem_cons_of_mem _ List.mem_cons_self)) hActive _ rfl

/-- The function `x² · x / x` is to be zero; it is NaN there. -/
def cusp : Problem Float 1 1 :=
  let x : Expression Float 1 := .coordinate ⟨0, Nat.zero_lt_one⟩
  .ofExpressions (.constant 0) #v[.div (.mul (.square x) x) x]

end PlaneSketch
