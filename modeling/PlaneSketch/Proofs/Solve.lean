import PlaneSketch.LinearAlgebra.Svd
import PlaneSketch.Proofs.Linkage.Scatter
import PlaneSketch.Solver.Session

/-!
# What a solve does to the sketch

A solve runs in three steps, of which only the first two can fail: a build, the binding of the
equations that are left, and the numeric method, whose vector is scattered.

* `Solve.run_eq_ok_iff`: **a solve succeeds exactly when its build and its bindings do**, and then
  it gives `Solve.outcome`.
* `Solve.exists_sketch_outcome`: a solve writes back some vector of variables and edits nothing
  else but the counters.
* `Solve.respects_of_run`: tied points coincide and fixed points stand where they have to.
* `Session.solveNotifying_completes_iff`: which requests for a solve run to completion.
* `Session.drag_cases`: what becomes of a drag.
-/

namespace PlaneSketch

namespace Solve

variable {α : Type} [Scalar α] {k : Kernel α} {config : Config α} {s : Sketch α}
  {active : Option PointRef}

/-- The outcome of a solve once nothing can fail any more. -/
def outcome (k : Kernel α) (config : Config α) (s : Sketch α) (active : Option PointRef)
    (l : Linkage α) (residuals : List (Residual α)) (inactive : Nat) : Solved α :=
  let constraints := s.constraints.refreshCounters inactive
  let guess := l.gather s.geometry
  if guess.size = 0 then
    determined config ⟨l.scatter s.geometry guess, constraints⟩ residuals inactive
  else
    let result := minimize k config
      (problem s.geometry l residuals (snapshot? s.geometry active) guess.size) guess.toVector
    optimised config ⟨l.scatter s.geometry result.minimization.x.toArray, constraints⟩
      residuals.length inactive result

/-- **A solve succeeds exactly when its build and its bindings do.** -/
theorem run_eq_ok_iff (r : Solved α) : run k config s active = .ok r ↔
    ∃ l residuals inactive, Linkage.build s.geometry s.constraints.items active = .ok l ∧
      bindAll s.geometry l s.constraints.items = .ok (residuals, inactive) ∧
      r = outcome k config s active l residuals inactive := by
  simp only [run, bind_eq_ok_iff, Prod.exists]
  constructor
  · rintro ⟨l, hBuild, residuals, inactive, hBind, hr⟩
    refine ⟨l, residuals, inactive, hBuild, hBind, ?_⟩
    rw [outcome]
    split at hr
    · next hEmpty =>
      rw [if_pos hEmpty]
      exact (Except.ok.inj hr).symm
    · next hSome =>
      rw [if_neg hSome]
      exact (Except.ok.inj hr).symm
  · rintro ⟨l, residuals, inactive, hBuild, hBind, rfl⟩
    refine ⟨l, hBuild, residuals, inactive, hBind, ?_⟩
    rw [outcome]
    split <;> rfl

/-- A solve writes back some vector of variables and counts the constraints anew. -/
theorem exists_sketch_outcome (k : Kernel α) (config : Config α) (s : Sketch α)
    (active : Option PointRef) (l : Linkage α) (residuals : List (Residual α)) (inactive : Nat) :
    ∃ vars, (outcome k config s active l residuals inactive).sketch =
      ⟨l.scatter s.geometry vars, s.constraints.refreshCounters inactive⟩ := by
  rw [outcome]
  split
  · exact ⟨_, rfl⟩
  · exact ⟨_, rfl⟩

/-- **A solve keeps the entities and the constraints.** -/
theorem sameIds_of_run {r : Solved α} (h : run k config s active = .ok r) :
    r.sketch.geometry.SameIds s.geometry ∧
      r.sketch.constraints.items = s.constraints.items := by
  obtain ⟨l, residuals, inactive, -, -, rfl⟩ := (run_eq_ok_iff r).mp h
  obtain ⟨vars, hSketch⟩ := exists_sketch_outcome k config s active l residuals inactive
  rw [hSketch]
  exact ⟨Linkage.sameIds_scatter l s.geometry vars, rfl⟩

omit [Scalar α] in
/-- The point that a snapshot is taken of is the dragged one. -/
theorem exists_of_snapshot? {g : Geometry α} {i : Nat} {target : Vec2 α}
    (h : snapshot? g active = some (i, target)) :
    ∃ p, active = some p ∧ g.pointIndex? p = some i ∧ g.pointAt? i = some target := by
  obtain ⟨index, hIndex, h⟩ := Option.bind_eq_some_iff.mp h
  obtain ⟨v, hv, hEq⟩ := Option.bind_eq_some_iff.mp h
  obtain ⟨rfl, rfl⟩ := Prod.mk.inj (Option.some.inj hEq)
  obtain ⟨p, hp, hi⟩ := Option.bind_eq_some_iff.mp hIndex
  exact ⟨p, hp, hi, hv⟩

theorem exists_run_eq_ok {l : Linkage α} {b : List (Residual α) × Nat}
    (hBuild : Linkage.build s.geometry s.constraints.items active = .ok l)
    (hBind : bindAll s.geometry l s.constraints.items = .ok b) :
    ∃ r, run k config s active = .ok r :=
  ⟨_, (run_eq_ok_iff _).mpr ⟨l, b.1, b.2, hBuild, hBind, rfl⟩⟩

/-- Whatever a method makes of the equations, tied points coincide and fixed points stand. -/
theorem respects_of_run {r : Solved α} (h : run k config s active = .ok r) :
    Linkage.Respects s.constraints.items s.geometry r.sketch.geometry := by
  obtain ⟨l, residuals, inactive, hBuild, -, rfl⟩ := (run_eq_ok_iff r).mp h
  obtain ⟨vars, hSketch⟩ := exists_sketch_outcome k config s active l residuals inactive
  rw [hSketch]
  exact Linkage.respects_scatter hBuild vars

omit [Scalar α] in
/-- Binding every equation succeeds if binding each does. -/
theorem exists_bindAll_eq_ok (g : Geometry α) (l : Linkage α) (constraints : List (Constraint α))
    (h : ∀ c ∈ constraints, ∃ b, Residual.bind g c.kind c.operands = .ok b) :
    ∃ b, bindAll g l constraints = .ok b := by
  induction constraints with
  | nil => exact ⟨_, rfl⟩
  | cons c rest ih =>
    obtain ⟨hFirst, hRest⟩ := List.forall_mem_cons.mp h
    obtain ⟨bound, hBound⟩ := hFirst
    obtain ⟨b, hb⟩ := ih hRest
    rw [bindAll, hb]
    split
    · exact ⟨_, rfl⟩
    · rw [hBound]
      exact ⟨_, rfl⟩

end Solve

namespace Session

variable {α ω : Type} [Scalar α] {k : Kernel α} {notify : Session α ω → Session α ω}
  {t : Session α ω} {active : Option PointRef}

/-- The session that a completed solve leaves, with `notify` in place of the callback. -/
def settle (notify : Session α ω → Session α ω) (t : Session α ω) (r : Solved α) : Session α ω :=
  let solved := { t.applySolved r with solving := true }
  { (if r.notify then notify solved else solved) with solving := false }

theorem solveNotifying_of_run (hSolving : t.solving = false) (hBorrowed : t.borrowed = false)
    {r : Solved α} (hRun : Solve.run k t.config t.sketch active = .ok r) :
    solveNotifying k notify t active = (settle notify t r, true) := by
  rw [solveNotifying, hSolving, hBorrowed, hRun]
  rfl

/-- A request for a solve that is not completed only writes to the log. -/
theorem solveNotifying_cases (k : Kernel α) (notify : Session α ω → Session α ω)
    (t : Session α ω) (active : Option PointRef) :
    (∃ e, solveNotifying k notify t active = (t.log e, false)) ∨
      t.solving = false ∧ t.borrowed = false ∧
        ∃ r, Solve.run k t.config t.sketch active = .ok r ∧
          solveNotifying k notify t active = (settle notify t r, true) := by
  cases hSolving : t.solving with
  | true => exact Or.inl ⟨.solveWhileSolving, by rw [solveNotifying, hSolving]; rfl⟩
  | false =>
    cases hBorrowed : t.borrowed with
    | true => exact Or.inl ⟨.sketchBorrowed, by rw [solveNotifying, hSolving, hBorrowed]; rfl⟩
    | false =>
      cases hRun : Solve.run k t.config t.sketch active with
      | error e =>
        exact Or.inl ⟨.solveSkipped e, by rw [solveNotifying, hSolving, hBorrowed, hRun]; rfl⟩
      | ok r => exact Or.inr ⟨rfl, rfl, r, rfl, solveNotifying_of_run hSolving hBorrowed hRun⟩

/-- **A request for a solve is completed if it comes at the right time and the solve succeeds.** -/
theorem solveNotifying_completes_iff : (solveNotifying k notify t active).2 = true ↔
    t.solving = false ∧ t.borrowed = false ∧
      ∃ r, Solve.run k t.config t.sketch active = .ok r := by
  constructor
  · intro h
    rcases solveNotifying_cases k notify t active with ⟨e, hSkipped⟩ |
      ⟨hSolving, hBorrowed, r, hRun, -⟩
    · rw [hSkipped] at h
      exact absurd h (by simp)
    · exact ⟨hSolving, hBorrowed, r, hRun⟩
  · rintro ⟨hSolving, hBorrowed, r, hRun⟩
    rw [solveNotifying_of_run hSolving hBorrowed hRun]

/-- A request for a solve that comes at the right time is completed or skipped, and the callback
has no say in which. -/
theorem solve_cases (k : Kernel α) (hSolving : t.solving = false) (hBorrowed : t.borrowed = false)
    (active : Option PointRef) :
    (∃ r, Solve.run k t.config t.sketch active = .ok r ∧
        ∀ notify, solveNotifying k notify t active = (settle notify t r, true)) ∨
      ∃ e, Solve.run k t.config t.sketch active = .error e ∧
        ∀ notify, solveNotifying k notify t active = (t.log (.solveSkipped e), false) := by
  cases hRun : Solve.run k t.config t.sketch active with
  | ok r => exact Or.inl ⟨r, rfl, fun notify => solveNotifying_of_run hSolving hBorrowed hRun⟩
  | error e =>
    refine Or.inr ⟨e, rfl, fun notify => ?_⟩
    rw [solveNotifying, hSolving, hBorrowed, hRun]
    rfl

omit [Scalar α] in
/-- A moved point can be put back. -/
theorem setPoint?_log {moved : Session α ω} {p : PointRef} {target previous : Vec2 α}
    (hMoved : t.setPoint? p target = some moved)
    (hPrevious : t.sketch.geometry.point? p = some previous) (e : Event α) :
    (moved.log e).setPoint? p previous = some (t.log e) := by
  obtain ⟨g, hg, rfl⟩ := Option.map_eq_some_iff.mp hMoved
  show (g.setPoint? p previous).map ((t.setGeometry g).log e).setGeometry = some (t.log e)
  rw [Geometry.setPoint?_setPoint? hg hPrevious]
  rfl

/-- **A drag is refused, or it moves the point and stands or falls with the solve around it**; if
that is skipped the point is back where it was. -/
theorem drag_cases (k : Kernel α) (hSolving : t.solving = false) (hBorrowed : t.borrowed = false)
    (p : PointRef) (target : Vec2 α) :
    (t.sketch.constraints.fixes p = true ∨ t.sketch.geometry.point? p = none) ∧
        (∃ e, ∀ notify, dragNotifying k notify t p target = (t.log e, false)) ∨
      t.sketch.constraints.fixes p = false ∧ ∃ moved, t.setPoint? p target = some moved ∧
        ((∃ r, Solve.run k moved.config moved.sketch (some p) = .ok r ∧
            ∀ notify, dragNotifying k notify t p target = (settle notify moved r, true)) ∨
          ∃ e, Solve.run k moved.config moved.sketch (some p) = .error e ∧
            ∀ notify, dragNotifying k notify t p target = (t.log (.solveSkipped e), false)) := by
  simp only [dragNotifying, hSolving, hBorrowed, Bool.false_eq_true, if_false]
  by_cases hFixed : t.sketch.constraints.fixes p = true
  · simp only [if_pos hFixed]
    exact Or.inl ⟨Or.inl hFixed, .dragOfFixedPoint p, fun notify => rfl⟩
  · simp only [if_neg hFixed]
    cases hPoint : t.sketch.geometry.point? p with
    | none => exact Or.inl ⟨Or.inr rfl, .dragOfUnknownPoint p, fun notify => rfl⟩
    | some previous =>
      have hExists : p.entity ∈ t.sketch.geometry.ids :=
        (t.sketch.geometry.isSome_point? p).mp (by simp [hPoint])
      obtain ⟨g, hg⟩ := Option.isSome_iff_exists.mp
        ((t.sketch.geometry.isSome_setPoint? p target).mpr hExists)
      have hMoved : t.setPoint? p target = some (t.setGeometry g) := by
        rw [Session.setPoint?, hg]
        rfl
      refine Or.inr ⟨Bool.eq_false_iff.mpr hFixed, t.setGeometry g, hMoved, ?_⟩
      simp only [hMoved, Option.getD_some]
      rcases solve_cases (t := t.setGeometry g) k hSolving hBorrowed (some p) with
        ⟨r, hRun, hSolve⟩ | ⟨e, hRun, hSolve⟩
      · exact Or.inl ⟨r, hRun, fun notify => by rw [hSolve]⟩
      · refine Or.inr ⟨e, hRun, fun notify => ?_⟩
        simp only [hSolve, setPoint?_log hMoved hPoint, Option.getD_some]

/-- **A drag of a point that is not fixed is completed if the solve around it is.** -/
theorem dragNotifying_of_run (hSolving : t.solving = false) (hBorrowed : t.borrowed = false)
    {p : PointRef} {target : Vec2 α} {moved : Session α ω} {r : Solved α}
    (hFree : t.sketch.constraints.fixes p = false) (hMoved : t.setPoint? p target = some moved)
    (hRun : Solve.run k moved.config moved.sketch (some p) = .ok r)
    (notify : Session α ω → Session α ω) :
    dragNotifying k notify t p target = (settle notify moved r, true) := by
  rcases drag_cases k hSolving hBorrowed p target with ⟨hFixed | hMissing, -⟩ |
    ⟨-, moved', hMoved', ⟨r', hRun', hDrag⟩ | ⟨e, hFailed, -⟩⟩
  · exact absurd (hFree.symm.trans hFixed) (by simp)
  · obtain ⟨g, hg, -⟩ := Option.map_eq_some_iff.mp hMoved
    exact absurd (Geometry.isSome_point?_of_setPoint? hg) (by simp [hMissing])
  · obtain rfl := Option.some.inj (hMoved.symm.trans hMoved')
    obtain rfl := Except.ok.inj (hRun'.symm.trans hRun)
    exact hDrag notify
  · obtain rfl := Option.some.inj (hMoved.symm.trans hMoved')
    exact absurd (hFailed.symm.trans hRun) (by simp)

/-- Without a callback a completed solve leaves just what it computed. -/
theorem settle_of_callback_none (hCallback : t.callback = none) (r : Solved α) :
    settle (Session.notify k) t r = { t.applySolved r with solving := false } := by
  have hNotify : Session.notify k { t.applySolved r with solving := true } =
      { t.applySolved r with solving := true } := by
    rw [Session.notify]
    simp only [applySolved, logAll, hCallback]
  rw [settle, hNotify, ite_self]

theorem sketch_solve_of_run (hSolving : t.solving = false) (hBorrowed : t.borrowed = false)
    (hCallback : t.callback = none) {r : Solved α}
    (hRun : Solve.run k t.config t.sketch active = .ok r) :
    (t.solve k active).1.sketch = r.sketch := by
  rw [solve, solveNotifying_of_run hSolving hBorrowed hRun, settle_of_callback_none hCallback]
  rfl

theorem exists_run_of_completed (h : (t.solve k active).2 = true) :
    ∃ r, Solve.run k t.config t.sketch active = .ok r ∧
      (t.callback = none → (t.solve k active).1.sketch = r.sketch) := by
  obtain ⟨hSolving, hBorrowed, r, hRun⟩ := solveNotifying_completes_iff.mp h
  exact ⟨r, hRun, fun hCallback => sketch_solve_of_run hSolving hBorrowed hCallback hRun⟩

/-- **After a completed solve the tied points coincide and the fixed points stand where the last
of their group was when it started.**  This is so of any vector of variables, whatever a method
would make of the equations. -/
theorem solve_respects (h : (t.solve k active).2 = true) :
    (∃ r, Solve.run k t.config t.sketch active = .ok r ∧
      Linkage.Respects t.sketch.constraints.items t.sketch.geometry r.sketch.geometry ∧
      (t.callback = none → (t.solve k active).1.sketch = r.sketch)) ∧
    ∃ l, Linkage.build t.sketch.geometry t.sketch.constraints.items active = .ok l ∧
      ∀ vars, Linkage.Respects t.sketch.constraints.items t.sketch.geometry
        (l.scatter t.sketch.geometry vars) := by
  obtain ⟨r, hRun, hSketch⟩ := exists_run_of_completed h
  obtain ⟨l, residuals, inactive, hBuild, -, -⟩ := (Solve.run_eq_ok_iff r).mp hRun
  exact ⟨⟨r, hRun, Solve.respects_of_run hRun, hSketch⟩, l, hBuild,
    Linkage.respects_scatter hBuild⟩

/-- Two segments that share a fixed end, the second one upright. -/
def joined : Session Float Unit :=
  { (Session.new .default) with
    sketch :=
      ⟨⟨[⟨⟨0⟩, ⟨0, 0⟩, ⟨10, 0⟩⟩, ⟨⟨1⟩, ⟨12, 2⟩, ⟨20, 2⟩⟩], []⟩,
        ⟨[⟨⟨0⟩, .coincidence, [.point (.stop ⟨0⟩), .point (.start ⟨1⟩)]⟩,
          ⟨⟨1⟩, .fixed, [.point (.stop ⟨0⟩)]⟩,
          ⟨⟨2⟩, .verticality, [.segment ⟨1⟩]⟩], .zero⟩⟩ }

theorem solve_respects_joined :
    (joined.solve Kernel.float (some (.stop ⟨1⟩))).2 = true ∧
      ∃ r, Solve.run Kernel.float joined.config joined.sketch (some (.stop ⟨1⟩)) = .ok r ∧
        Linkage.Respects joined.sketch.constraints.items joined.sketch.geometry
          r.sketch.geometry ∧
        (joined.solve Kernel.float (some (.stop ⟨1⟩))).1.sketch = r.sketch := by
  have hCompletes : (joined.solve Kernel.float (some (.stop ⟨1⟩))).2 = true := rfl
  obtain ⟨⟨r, hRun, hRespects, hSketch⟩, -⟩ := solve_respects hCompletes
  exact ⟨hCompletes, r, hRun, hRespects, hSketch rfl⟩

end Session

end PlaneSketch
