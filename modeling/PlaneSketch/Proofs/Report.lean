import PlaneSketch.Proofs.Equations
import PlaneSketch.Proofs.Optimize.Outcome
import PlaneSketch.Proofs.Solve

/-!
# What a report says

A report is put together while the geometry is written again and again.  It is still true of the
geometry that is left.

* `Solve.live_concat`: **an evaluation sees its own vector only**, whichever vectors were evaluated
  before it.
* `Solve.accounts_of_run`: **the report describes the sketch that a solve leaves**.
* `Session.solve_accounts`: so does the session, whatever the callback does.
-/

namespace PlaneSketch

open Scalar

section Largest

variable {α : Type} [Scalar α]

/-- `m` is the largest absolute value of a list; values that are no numbers are passed over, and it
is zero if there are no others. -/
structure IsLargest (m : α) (values : List α) : Prop where
  nonneg : 0 ≤ m
  attained : m = 0 ∨ ∃ x ∈ values, m = Scalar.abs x
  bound : ∀ x ∈ values, IsNumber (Scalar.abs x) → Scalar.abs x ≤ m

theorem foldl_larger_eq_or (values : List α) : ∀ most : α,
    values.foldl (fun most x => larger most (Scalar.abs x)) most = most ∨
      ∃ x ∈ values,
        values.foldl (fun most x => larger most (Scalar.abs x)) most = Scalar.abs x := by
  induction values with
  | nil => intro most; exact Or.inl rfl
  | cons y values ih =>
    intro most
    rw [List.foldl_cons]
    rcases ih (larger most (Scalar.abs y)) with hKept | ⟨x, hx, hLater⟩
    · rcases larger_eq_or most (Scalar.abs y) with hMost | hFirst
      · exact Or.inl (hKept.trans hMost)
      · exact Or.inr ⟨y, List.mem_cons_self, hKept.trans hFirst⟩
    · exact Or.inr ⟨x, List.mem_cons_of_mem y hx, hLater⟩

theorem isLargest_maxAbs [Ordered α] {n : Nat} (v : Vector α n) :
    IsLargest (maxAbs v) v.toList := by
  refine ⟨zero_le_maxAbs v, ?_, fun x hx hNumber => ?_⟩
  · rw [maxAbs_eq_foldl]
    exact foldl_larger_eq_or v.toList 0
  · exact abs_le_maxAbs (Vector.mem_toList_iff.mp hx) hNumber

end Largest

namespace Solve

variable {α : Type}

/-! ## Evaluations one after the other -/

section Live

variable [Scalar α] {g : Geometry α} {l : Linkage α} {constraints : List (Constraint α)}
  {active : Option PointRef} {n : Nat}

/-- The geometry that a solve works on after its problem was evaluated at some vectors, of which
each was written to it. -/
def live (l : Linkage α) (g : Geometry α) (history : List (Vector α n)) : Geometry α :=
  history.foldl (fun g x => l.scatter g x.toArray) g

theorem sameIds_live (l : Linkage α) (g : Geometry α) (history : List (Vector α n)) :
    (live l g history).SameIds g := by
  induction history generalizing g with
  | nil => exact .refl g
  | cons x history ih => exact (ih _).trans (Linkage.sameIds_scatter l g x.toArray)

/-- **The last vector decides about the whole geometry.** -/
theorem live_concat (h : Linkage.build g constraints active = .ok l)
    (hn : n = l.degreesOfFreedom) (history : List (Vector α n)) (x : Vector α n) :
    live l g (history ++ [x]) = l.scatter g x.toArray := by
  rw [live, List.foldl_append, List.foldl_cons, List.foldl_nil]
  exact Linkage.scatter_eq_of_sameIds h (sameIds_live l g history) (x.size_toArray.trans hn)

theorem objective_scatter (g : Geometry α) (l : Linkage α) (equations : List (Residual α))
    (target : Option (Nat × Vec2 α)) (x : Vector α n) :
    objective target (l.scatter g x.toArray) = (problem g l equations target n).objective x := by
  cases target with
  | none => rfl
  | some target => rfl

end Live

/-! ## The report -/

section Report

variable [Scalar α] {k : Kernel α} {config : Config α} {s : Sketch α} {active : Option PointRef}

theorem maxResidual_minimize [Ordered α] (k : Kernel α) (config : Config α) {n m : Nat}
    (p : Problem α n m) (x : Vector α n) :
    (minimize k config p x).minimization.maxResidual =
      maxAbs (p.residuals (minimize k config p x).minimization.x) := by
  obtain ⟨w, hw, converged, iterations, hRun, -, -⟩ := exists_minimize_eq k config p x
  have hAt : w = p.at w.x := eq_at_of_mem_iterates hw
  rw [hRun]
  exact congrArg (maxAbs <| Iterate.residuals ·) hAt

/-- **The largest residual that is reported is that of the geometry which is left**, although the
best point of a run is seldom the last one that was evaluated. -/
theorem maxResidual_outcome [Ordered α] (k : Kernel α) (config : Config α) (s : Sketch α)
    (active : Option PointRef) (l : Linkage α) (equations : List (Residual α)) (inactive : Nat) :
    (outcome k config s active l equations inactive).report.maxResidual =
      maxAbs (residualValues equations
        (outcome k config s active l equations inactive).sketch.geometry) := by
  rw [outcome]
  split
  · rfl
  · exact maxResidual_minimize k config _ _

/-- What a report says of the sketch that a solve was given and of the one that it leaves. -/
structure Accounts (s : Sketch α) (l : Linkage α) (equations : List (Residual α))
    (r : Solved α) : Prop where
  maxResidual : IsLargest r.report.maxResidual (equations.map (·.value r.sketch.geometry))
  residuals : r.report.residuals = equations.length
  degreesOfFreedom : r.report.degreesOfFreedom = l.degreesOfFreedom
  /-- Every constraint is counted once. -/
  counts : r.sketch.constraints.counters.inactive + r.report.residuals +
    r.sketch.constraints.counters.solvedBySubstitution + r.sketch.constraints.counters.fixed =
      s.constraints.items.length
  ids : r.sketch.geometry.SameIds s.geometry
  items : r.sketch.constraints.items = s.constraints.items

/-- **The report describes the sketch that a solve leaves.** -/
theorem accounts_of_run [Ordered α] {r : Solved α} (h : run k config s active = .ok r) :
    ∃ l equations, Linkage.build s.geometry s.constraints.items active = .ok l ∧
      Binds s.geometry l s.constraints.items equations ∧ Accounts s l equations r := by
  obtain ⟨hIds, hItems⟩ := sameIds_of_run h
  obtain ⟨l, equations, inactive, hBuild, hBind, rfl⟩ := (run_eq_ok_iff r).mp h
  obtain ⟨hBinds, rfl⟩ := binds_of_bindAll _ hBind
  have hSize : (l.gather s.geometry).size = l.degreesOfFreedom :=
    Linkage.size_gather_of_build hBuild (.refl s.geometry)
  let inactive := s.constraints.items.countP (l.isInactive s.geometry)
  have hResiduals : (outcome k config s active l equations inactive).report.residuals =
      equations.length := by
    rw [outcome]
    split <;> rfl
  have hCounters : (outcome k config s active l equations inactive).sketch.constraints =
      s.constraints.refreshCounters inactive := by
    obtain ⟨vars, hSketch⟩ := exists_sketch_outcome k config s active l equations inactive
    rw [hSketch]
  refine ⟨l, equations, hBuild, hBinds, ?_, hResiduals, ?_, ?_, hIds, hItems⟩
  · rw [maxResidual_outcome]
    exact isLargest_maxAbs (residualValues equations _)
  · rw [outcome]
    split
    · next hEmpty => exact hEmpty.symm.trans hSize
    · exact hSize
  · rw [hCounters, hResiduals, ← List.Forall₂.length_eq hBinds]
    exact length_eq_add s.geometry l s.constraints.items

end Report

end Solve

namespace Session

variable {α ω : Type} [Scalar α] {k : Kernel α} {t : Session α ω} {active : Option PointRef}

/-! ## After the callback -/

/-- What a callback cannot change while it runs: whether a solve is running, and what the last one
reported. -/
structure SameReport (t t' : Session α ω) : Prop where
  solving : t'.solving = t.solving
  degreesOfFreedom : t'.degreesOfFreedom = t.degreesOfFreedom
  report : t'.report = t.report

/-- **A callback changes nothing of what was reported**: the solves that it asks for are refused. -/
theorem sameReport_runCallback (k : Kernel α) (callback : Callback α ω) :
    ∀ t : Session α ω, t.solving = true → SameReport t (runCallback k callback t) := by
  induction callback with
  | done => intro t _; exact ⟨rfl, rfl, rfl⟩
  | solve active rest ih =>
    intro t hSolving
    have hRefused : solveNotifying k id t active = (t.log .solveWhileSolving, false) := by
      rw [solveNotifying, hSolving]
      rfl
    rw [runCallback, hRefused]
    obtain ⟨h, h', h''⟩ := ih (t.log .solveWhileSolving) hSolving
    exact ⟨h, h', h''⟩
  | drag p target rest ih =>
    intro t hSolving
    have hRefused : dragNotifying k id t p target = (t, false) := by
      rw [dragNotifying, hSolving]
      rfl
    rw [runCallback, hRefused]
    exact ih false t hSolving
  | install callback rest _ ih =>
    intro t hSolving
    obtain ⟨h, h', h''⟩ := ih (t.setCallback callback) hSolving
    exact ⟨h, h', h''⟩
  | configure change rest ih =>
    intro t hSolving
    obtain ⟨h, h', h''⟩ := ih (t.setConfig (change t.config)) hSolving
    exact ⟨h, h', h''⟩
  | edit change rest ih =>
    intro t hSolving
    obtain ⟨h, h', h''⟩ := ih { t with sketch := change t.sketch } hSolving
    exact ⟨h, h', h''⟩
  | look rest ih =>
    intro t hSolving
    exact ih t.sketch t.solving t hSolving
  | send message rest ih =>
    intro t hSolving
    obtain ⟨h, h', h''⟩ := ih { t with messages := t.messages.push message } hSolving
    exact ⟨h, h', h''⟩

theorem sameReport_notify (k : Kernel α) (hSolving : t.solving = true) :
    SameReport t (notify k t) := by
  rw [notify]
  cases hCallback : t.callback with
  | none => exact ⟨rfl, rfl, rfl⟩
  | some callback =>
    obtain ⟨h, h', h''⟩ := sameReport_runCallback k callback { t with callback := none } hSolving
    exact ⟨h, h', h''⟩

/-- The report of a completed solve is there when the callback has run. -/
theorem report_settle (k : Kernel α) (t : Session α ω) (r : Solved α) :
    (settle (notify k) t r).report = some r.report ∧
      (settle (notify k) t r).degreesOfFreedom = r.report.degreesOfFreedom := by
  rw [settle]
  split
  · obtain ⟨-, hFreedom, hReport⟩ :=
      sameReport_notify (t := { t.applySolved r with solving := true }) k rfl
    exact ⟨hReport, hFreedom⟩
  · exact ⟨rfl, rfl⟩

/-- **After a completed solve the report, the counters and the degrees of freedom describe the
sketch that it left**: the largest residual is taken over the equations that are left, on the final
geometry; every constraint is counted once; nothing but coordinates and offsets has changed.  This
is so because an evaluation sees its own vector only, although each one writes to the geometry. -/
theorem solve_accounts [Ordered α] (k : Kernel α) :
    (∀ (t : Session α ω) (active : Option PointRef), (t.solve k active).2 = true →
      ∃ r l equations, Solve.run k t.config t.sketch active = .ok r ∧
        Linkage.build t.sketch.geometry t.sketch.constraints.items active = .ok l ∧
        Solve.Binds t.sketch.geometry l t.sketch.constraints.items equations ∧
        Solve.Accounts t.sketch l equations r ∧
        (t.solve k active).1.report = some r.report ∧
        (t.solve k active).1.degreesOfFreedom = r.report.degreesOfFreedom ∧
        (t.solve k active).1 = settle (notify k) t r ∧
        (t.callback = none → (t.solve k active).1.sketch = r.sketch)) ∧
    ∀ {g : Geometry α} {constraints : List (Constraint α)} {active : Option PointRef}
      {l : Linkage α}, Linkage.build g constraints active = .ok l →
      ∀ (equations : List (Residual α)) (target : Option (Nat × Vec2 α))
        (history : List (Vector α l.degreesOfFreedom)) (x : Vector α l.degreesOfFreedom),
        let p := Solve.problem g l equations target l.degreesOfFreedom
        Solve.live l g (history ++ [x]) = l.scatter g x.toArray ∧
        Solve.objective target (Solve.live l g (history ++ [x])) = p.objective x ∧
        Solve.residualValues equations (Solve.live l g (history ++ [x])) = p.residuals x := by
  constructor
  · intro t active hCompleted
    obtain ⟨hSolving, hBorrowed, r, hRun⟩ := solveNotifying_completes_iff.mp hCompleted
    obtain ⟨l, equations, hBuild, hBinds, hAccounts⟩ := Solve.accounts_of_run hRun
    have hSettled : t.solve k active = (settle (notify k) t r, true) :=
      solveNotifying_of_run hSolving hBorrowed hRun
    obtain ⟨hReport, hFreedom⟩ := report_settle k t r
    rw [hSettled]
    refine ⟨r, l, equations, hRun, hBuild, hBinds, hAccounts, hReport, hFreedom, rfl, ?_⟩
    intro hCallback
    rw [settle_of_callback_none hCallback]
    rfl
  · intro g constraints active l hBuild equations target history x p
    have hLive := Solve.live_concat hBuild rfl history x
    refine ⟨hLive, ?_, ?_⟩
    · rw [hLive]
      exact Solve.objective_scatter g l equations target x
    · rw [hLive]
      rfl

theorem solve_accounts_joined :
    (joined.solve Kernel.float (some (.stop ⟨1⟩))).2 = true ∧
    (∃ (r : Solved Float) (l : Linkage Float),
      (joined.solve Kernel.float (some (.stop ⟨1⟩))).1.report = some r.report ∧
      r.report.degreesOfFreedom = l.degreesOfFreedom ∧
      r.sketch.constraints.counters.inactive + r.report.residuals +
        r.sketch.constraints.counters.solvedBySubstitution +
        r.sketch.constraints.counters.fixed = 3 ∧
      (joined.solve Kernel.float (some (.stop ⟨1⟩))).1.sketch = r.sketch) ∧
    ∃ l, Linkage.build joined.sketch.geometry joined.sketch.constraints.items none = .ok l ∧
      ∀ x y : Vector Float l.degreesOfFreedom,
        Solve.live l joined.sketch.geometry [y, x] =
          l.scatter joined.sketch.geometry x.toArray := by
  have hCompletes : (joined.solve Kernel.float (some (.stop ⟨1⟩))).2 = true := rfl
  obtain ⟨hSolve, hLaw⟩ := solve_accounts (ω := Unit) Kernel.float
  obtain ⟨r, l, equations, -, -, -, hAccounts, hReport, -, -, hSketch⟩ :=
    hSolve joined (some (.stop ⟨1⟩)) hCompletes
  obtain ⟨l', hBuild⟩ : ∃ l, Linkage.build joined.sketch.geometry joined.sketch.constraints.items
      none = .ok l := ⟨_, rfl⟩
  exact ⟨hCompletes, ⟨r, l, hReport, hAccounts.degreesOfFreedom, hAccounts.counts, hSketch rfl⟩,
    l', hBuild, fun x y => (hLaw hBuild [] none [y] x).1⟩

end Session

end PlaneSketch
