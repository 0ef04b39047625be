import PlaneSketch.Proofs.Attempt
import PlaneSketch.Proofs.Convergence
import PlaneSketch.Proofs.Linkage.Leading

/-!
# Sketches that are satisfied already

In exact arithmetic a sketch whose equations hold once its groups are put in place is left there.
The objective of a drag has nothing against this: it is the squared distance of the dragged point
from where it was dropped, and the variables that this point reads start from there, so that each
of them changes the distance alike on both sides.

* `Solve.gradient_gather`: **the objective is flat at the start of every solve.**
* `Solve.rests_of_satisfied`: **a solve of a satisfied sketch converges after no iteration** and
  leaves the groups in place.
* `Solve.satisfied_substituted`: what is left is satisfied, whichever point is dragged next.
* `Session.rests_and_lands`: a second solve moves nothing, and a drag to where all equations hold
  lands there.
-/

namespace PlaneSketch

/-! ## The objective at the start -/

/-- A source that is read at `c` is as far from `c` on both sides of there. -/
theorem Source.sq_set {n : Nat} {x : Vector ℝ n} {c : ℝ} (source : Source ℝ)
    (hStart : ∀ i, source = .free i → x.toArray[i]? = some c) (j : Fin n) (h : ℝ) :
    (source.value (x.set j (x.get j + h) j.isLt).toArray - c) *
        (source.value (x.set j (x.get j + h) j.isLt).toArray - c) =
      (source.value (x.set j (x.get j - h) j.isLt).toArray - c) *
        (source.value (x.set j (x.get j - h) j.isLt).toArray - c) := by
  cases source with
  | constant v => rfl
  | free i =>
    have hRead := hStart i rfl
    simp only [Source.value, Vector.toArray_set, Array.getElem?_set]
    by_cases hij : j.val = i
    · have hCentre : x.get j = c := by
        rw [← hij, Array.getElem?_eq_getElem (by simp)] at hRead
        exact Option.some.inj hRead
      simp only [if_pos hij, Option.getD_some, hCentre]
      ring
    · simp only [if_neg hij]

namespace Solve

section Objective

variable {α : Type} [Scalar α] {g : Geometry α} {constraints : List (Constraint α)}
  {active : Option PointRef} {l : Linkage α}

/-- The objective of a drag is the sum of what the two coordinates of the point add to it. -/
theorem objective_problem (h : Linkage.build g constraints active = .ok l) {i : Nat}
    (hi : i < g.pointCount) (target : Vec2 α) (equations : List (Residual α)) (n : Nat) :
    ∃ x y, l.source? (Axis.x.slot i) = some x ∧ l.source? (Axis.y.slot i) = some y ∧
      ∀ v : Vector α n, (problem g l equations (some (i, target)) n).objective v =
        (x.value v.toArray - target.x) * (x.value v.toArray - target.x) +
          (y.value v.toArray - target.y) * (y.value v.toArray - target.y) := by
  obtain ⟨x, y, hx, hy, -⟩ := Linkage.places_getElem? h hi
  refine ⟨x, y, hx, hy, fun v => ?_⟩
  have hRead : ∀ axis : Axis, ((l.scatter g v.toArray).pointAt? i).map axis.coordinate =
      (l.source? (axis.slot i)).map (·.value v.toArray) := by
    intro axis
    rw [← Geometry.coordinateAt?_slot, Linkage.coordinateAt?_scatter h (.refl g)
      (Linkage.slot_lt hi)]
  obtain ⟨w, hw⟩ := Option.isSome_iff_exists.mp (((l.scatter g v.toArray).isSome_pointAt? i).mpr
    ((Linkage.sameIds_scatter l g v.toArray).pointCount ▸ hi))
  have hX : Axis.x.coordinate w = x.value v.toArray := by
    simpa only [hw, hx, Option.map_some, Option.some.injEq] using hRead .x
  have hY : Axis.y.coordinate w = y.value v.toArray := by
    simpa only [hw, hy, Option.map_some, Option.some.injEq] using hRead .y
  rw [← objective_scatter, objective, hw, ← hX, ← hY]
  rfl

end Objective

variable {g : Geometry ℝ} {constraints : List (Constraint ℝ)} {active : Option PointRef}
  {l : Linkage ℝ}

/-- **The objective is flat at the start of every solve**, whatever step differences are taken
with. -/
theorem gradient_gather (h : Linkage.build g constraints active = .ok l)
    (equations : List (Residual ℝ)) (step : ℝ) :
    (problem g l equations (snapshot? g active) (l.gather g).size).gradient step
      (l.gather g).toVector = 0 := by
  refine Problem.gradient_eq_zero (fun j amount => ?_) step
  cases hSnapshot : snapshot? g active with
  | none => rfl
  | some dragged =>
    obtain ⟨i, target⟩ := dragged
    obtain ⟨p, rfl, hi, hTarget⟩ := exists_of_snapshot? hSnapshot
    obtain ⟨x, y, hx, hy, hObjective⟩ := objective_problem h (Geometry.pointIndex?_lt hi) target
      equations (l.gather g).size
    have hStart : ∀ (axis : Axis) (source : Source ℝ), l.source? (axis.slot i) = some source →
        ∀ index, source = .free index →
          (l.gather g).toVector.toArray[index]? = some (axis.coordinate target) := by
      rintro axis source hSource index rfl
      refine (Linkage.getElem?_gather_of_active h hi hSource).trans ?_
      rw [Geometry.coordinateAt?_slot, hTarget]
      rfl
    rw [hObjective, hObjective]
    exact congrArg₂ (· + ·) (x.sq_set (hStart .x x hx) j amount)
      (y.sq_set (hStart .y y hy) j amount)

/-! ## Solves that move nothing -/

/-- The equations that are left hold once the groups are put in place. -/
def Satisfied (g : Geometry ℝ) (constraints : List (Constraint ℝ)) (l : Linkage ℝ) : Prop :=
  ∀ c ∈ constraints, ¬ l.isInactive g c = true →
    ∀ b, Residual.bind g c.kind c.operands = .ok (some b) → b.value (l.substituted g) = 0

theorem residualValues_substituted (hSatisfied : Satisfied g constraints l)
    {equations : List (Residual ℝ)} {inactive : Nat}
    (hBind : bindAll g l constraints = .ok (equations, inactive)) :
    residualValues equations (l.substituted g) = 0 := by
  refine Vector.ext fun i hi => ?_
  obtain ⟨c, hc, hBound⟩ :=
    (binds_of_bindAll _ hBind).1.exists_bind equations[i] (List.getElem_mem hi)
  obtain ⟨hMem, hLeft⟩ := List.mem_filter.mp hc
  have hActive : ¬ l.isInactive g c = true := by
    rw [Bool.and_eq_true] at hLeft
    simpa using hLeft.2
  have hZero := hSatisfied c hMem hActive _ hBound
  simpa [residualValues] using hZero

/-- A solve has found nothing to do and has left a geometry. -/
structure Rests (r : Solved ℝ) (g : Geometry ℝ) : Prop where
  converged : r.report.converged = true
  iterations : r.report.iterations = 0
  geometry : r.sketch.geometry = g

/-- **A solve of a satisfied sketch converges after no iteration** and leaves the groups in
place. -/
theorem rests_of_satisfied {k : Kernel ℝ} (hKernel : k.KeepsZero) {config : Config ℝ}
    (hConfig : config.Admissible) {s : Sketch ℝ} {r : Solved ℝ}
    (hRun : run k config s active = .ok r)
    (hBuild : Linkage.build s.geometry s.constraints.items active = .ok l)
    (hSatisfied : Satisfied s.geometry s.constraints.items l) :
    Rests r (l.substituted s.geometry) := by
  obtain ⟨l', equations, inactive, hBuild', hBind, rfl⟩ := (run_eq_ok_iff r).mp hRun
  obtain rfl := Except.ok.inj (hBuild.symm.trans hBuild')
  have hResiduals := residualValues_substituted hSatisfied hBind
  rw [outcome]
  split
  · refine ⟨decide_eq_true ?_, rfl, rfl⟩
    change maxAbs (residualValues equations (l.substituted s.geometry)) ≤ _
    rw [hResiduals]
    exact maxAbs_zero_le hConfig.constraintTolerance
  · next hFree =>
    have hMinimization := minimize_of_satisfied (x := (l.gather s.geometry).toVector) hKernel
      hConfig hFree hResiduals
      (gradient_gather hBuild equations config.finiteDifferenceStep)
    refine ⟨congrArg Minimization.converged hMinimization,
      congrArg Minimization.iterations hMinimization, ?_⟩
    exact congrArg (fun m => l.scatter s.geometry (Minimization.x m).toArray) hMinimization

/-- **What is left is satisfied, whichever point is dragged next**, and its groups are in place. -/
theorem satisfied_substituted (hBuild : Linkage.build g constraints active = .ok l)
    {bound : List (Residual ℝ) × Nat} (hBind : bindAll g l constraints = .ok bound)
    (hSatisfied : Satisfied g constraints l) {active' : Option PointRef}
    (hActive : ∀ p, active' = some p → (g.pointIndex? p).isSome) :
    ∃ l', Linkage.build (l.substituted g) constraints active' = .ok l' ∧
      bindAll (l.substituted g) l' constraints = .ok bound ∧
      l'.substituted (l.substituted g) = l.substituted g ∧
      Satisfied (l.substituted g) constraints l' := by
  have hSize := Linkage.size_gather_of_build hBuild (.refl g)
  obtain ⟨l', hBuild', hLinks, hGather, hScatter⟩ :=
    Linkage.rebuild_scatter hBuild hSize hActive
  have hIds : (l.substituted g).SameIds g := Linkage.sameIds_scatter l g _
  have hStill : l'.substituted (l.substituted g) = l.substituted g := by
    rw [Linkage.substituted, Linkage.substituted, hGather, hScatter]
  refine ⟨l', hBuild', (bindAll_congr hIds hLinks constraints).trans hBind, hStill, ?_⟩
  intro c hc hLeft b hBound
  rw [Linkage.isInactive_congr_links hLinks hIds] at hLeft
  rw [Residual.bind_congr hIds] at hBound
  rw [hStill]
  exact hSatisfied c hc hLeft b hBound

end Solve

/-! ## Sessions -/

theorem Geometry.coordinate?_of_setPoint? {α : Type} {g g' : Geometry α} {p : PointRef} {v : Vec2 α}
    (h : g.setPoint? p v = some g') (axis : Axis) :
    g'.coordinate? axis p = some (axis.coordinate v) := by
  obtain ⟨i, hi, hSet⟩ := Option.bind_eq_some_iff.mp h
  have hIndex : g'.pointIndex? p = some i := ((sameIds_of_setPoint? h).pointIndex? p).trans hi
  rw [coordinate?_of_pointIndex? hIndex, pointAt?_of_setPointAt? hSet]
  rfl

/-- A point that no `fixed` constraint touches is not named by one. -/
theorem Constraints.fixes_eq_false {α : Type} {cs : Constraints α} {p : PointRef}
    (h : p ∉ Linkage.fixedPoints cs.items) : cs.fixes p = false := by
  refine Bool.eq_false_iff.mpr fun hFixes => h ?_
  obtain ⟨c, hc, hKind, ho⟩ := fixes_iff.mp hFixes
  exact Linkage.mem_fixedPoints_iff.mpr
    ⟨c, hc, hKind, List.mem_flatMap.mpr ⟨.point p, ho, List.mem_singleton_self p⟩⟩

namespace Session

variable {ω : Type} {k : Kernel ℝ} {t : Session ℝ ω} {active : Option PointRef} {l : Linkage ℝ}
  {bound : List (Residual ℝ) × Nat}

/-- A solve of a satisfied sketch is completed and rests, and so does any solve of what it
leaves. -/
theorem solve_rests (hKernel : k.KeepsZero) (hConfig : t.config.Admissible)
    (hSolving : t.solving = false) (hBorrowed : t.borrowed = false)
    (hBuild : Linkage.build t.sketch.geometry t.sketch.constraints.items active = .ok l)
    (hBind : Solve.bindAll t.sketch.geometry l t.sketch.constraints.items = .ok bound)
    (hSatisfied : Solve.Satisfied t.sketch.geometry t.sketch.constraints.items l) :
    ∃ r, t.solve k active = (settle (notify k) t r, true) ∧
      Solve.Rests r (l.substituted t.sketch.geometry) ∧
      ∀ active' : Option PointRef, (∀ p, active' = some p → (t.sketch.geometry.point? p).isSome) →
        ∃ r', Solve.run k t.config r.sketch active' = .ok r' ∧
          Solve.Rests r' (l.substituted t.sketch.geometry) := by
  obtain ⟨r, hRun⟩ : ∃ r, Solve.run k t.config t.sketch active = .ok r :=
    Solve.exists_run_eq_ok hBuild hBind
  have hRests := Solve.rests_of_satisfied hKernel hConfig hRun hBuild hSatisfied
  refine ⟨r, solveNotifying_of_run hSolving hBorrowed hRun, hRests, fun active' hActive => ?_⟩
  have hIndex : ∀ p, active' = some p → (t.sketch.geometry.pointIndex? p).isSome :=
    fun p hp => (Geometry.isSome_pointIndex?_iff _ p).mpr (hActive p hp)
  obtain ⟨l', hBuild', hBind', hStill, hSatisfied'⟩ :=
    Solve.satisfied_substituted hBuild hBind hSatisfied hIndex
  have hItems : r.sketch.constraints.items = t.sketch.constraints.items :=
    (Solve.sameIds_of_run hRun).2
  rw [← hRests.geometry, ← hItems] at hBuild' hBind' hSatisfied'
  obtain ⟨r', hRun'⟩ : ∃ r', Solve.run k t.config r.sketch active' = .ok r' :=
    Solve.exists_run_eq_ok hBuild' hBind'
  have hRests' := Solve.rests_of_satisfied hKernel hConfig hRun' hBuild' hSatisfied'
  rw [hRests.geometry, hStill] at hRests'
  exact ⟨r', hRun', hRests'⟩

/-- Two solves in a row, without a callback that could edit the sketch in between. -/
theorem sketch_solve_solve (hBorrowed : t.borrowed = false) (hCallback : t.callback = none)
    {r r' : Solved ℝ} (hSolve : t.solve k active = (settle (notify k) t r, true))
    {active' : Option PointRef} (hRun : Solve.run k t.config r.sketch active' = .ok r') :
    (t.solve k active).1.sketch = r.sketch ∧
      ((t.solve k active).1.solve k active').1.sketch = r'.sketch := by
  let after : Session ℝ ω := { t.applySolved r with solving := false }
  have hAfter : (t.solve k active).1 = after := by
    rw [hSolve, settle_of_callback_none hCallback]
  rw [hAfter]
  exact ⟨rfl, sketch_solve_of_run (t := after) rfl hBorrowed hCallback hRun⟩

/-- **A satisfied drag lands**: the point stands where it was dropped, along every axis along which
no fixed point is in its group. -/
theorem drag_lands (hKernel : k.KeepsZero) (hConfig : t.config.Admissible)
    (hSolving : t.solving = false) (hBorrowed : t.borrowed = false) {p : PointRef}
    {target : Vec2 ℝ} {moved : Session ℝ ω} (hMoved : t.setPoint? p target = some moved)
    (hBuild : Linkage.build moved.sketch.geometry t.sketch.constraints.items (some p) = .ok l)
    (hBind : Solve.bindAll moved.sketch.geometry l t.sketch.constraints.items = .ok bound)
    (hSatisfied : Solve.Satisfied moved.sketch.geometry t.sketch.constraints.items l) {axis : Axis}
    (hFree : ∀ q ∈ Linkage.fixedPoints t.sketch.constraints.items,
      ¬ Linkage.SameGroup t.sketch.constraints.items axis p q) :
    ∃ r, t.drag k p target = (settle (notify k) moved r, true) ∧
      Solve.Rests r (l.substituted moved.sketch.geometry) ∧
      r.sketch.geometry.coordinate? axis p = some (axis.coordinate target) := by
  obtain ⟨g, hg, rfl⟩ := Option.map_eq_some_iff.mp hMoved
  obtain ⟨r, hRun⟩ : ∃ r, Solve.run k t.config (t.setGeometry g).sketch (some p) = .ok r :=
    Solve.exists_run_eq_ok hBuild hBind
  have hRests := Solve.rests_of_satisfied hKernel hConfig hRun hBuild hSatisfied
  refine ⟨r, ?_, hRests, ?_⟩
  · have hNamed : t.sketch.constraints.fixes p = false :=
      Constraints.fixes_eq_false fun hp => hFree p hp (.refl p)
    exact dragNotifying_of_run hSolving hBorrowed hNamed hMoved hRun _
  · rw [hRests.geometry]
    exact (Linkage.coordinate?_substituted hBuild hFree).trans
      (Geometry.coordinate?_of_setPoint? hg axis)

/-- **A satisfied sketch stays as it is, and a drag that can be satisfied lands**, with either
method and whatever the kernel makes of right-hand sides that are not zero. -/
theorem rests_and_lands (hKernel : k.KeepsZero) :
    (∀ (t : Session ℝ ω) (active : Option PointRef) (l : Linkage ℝ)
      (bound : List (Residual ℝ) × Nat), t.solving = false → t.borrowed = false →
      t.config.Admissible →
      Linkage.build t.sketch.geometry t.sketch.constraints.items active = .ok l →
      Solve.bindAll t.sketch.geometry l t.sketch.constraints.items = .ok bound →
      Solve.Satisfied t.sketch.geometry t.sketch.constraints.items l →
        ∃ r, Solve.Rests r (l.substituted t.sketch.geometry) ∧
          t.solve k active = (settle (notify k) t r, true) ∧
          (t.solve k active).1.report = some r.report ∧
          (t.callback = none →
            (t.solve k active).1.sketch.geometry = l.substituted t.sketch.geometry ∧
            ((t.solve k active).1.solve k none).1.sketch.geometry =
              l.substituted t.sketch.geometry) ∧
          ∀ active' : Option PointRef,
            (∀ p, active' = some p → (t.sketch.geometry.point? p).isSome) →
            ∃ r', Solve.run k t.config r.sketch active' = .ok r' ∧
              Solve.Rests r' r.sketch.geometry) ∧
    ∀ (t : Session ℝ ω) (p : PointRef) (target : Vec2 ℝ) (moved : Session ℝ ω) (l : Linkage ℝ)
      (bound : List (Residual ℝ) × Nat), t.solving = false → t.borrowed = false →
      t.config.Admissible → t.setPoint? p target = some moved →
      Linkage.build moved.sketch.geometry t.sketch.constraints.items (some p) = .ok l →
      Solve.bindAll moved.sketch.geometry l t.sketch.constraints.items = .ok bound →
      Solve.Satisfied moved.sketch.geometry t.sketch.constraints.items l →
      ∀ axis, (∀ q ∈ Linkage.fixedPoints t.sketch.constraints.items,
          ¬ Linkage.SameGroup t.sketch.constraints.items axis p q) →
        ∃ r, Solve.Rests r (l.substituted moved.sketch.geometry) ∧
          t.drag k p target = (settle (notify k) moved r, true) ∧
          r.sketch.geometry.coordinate? axis p = some (axis.coordinate target) ∧
          (t.callback = none → (t.drag k p target).1.sketch.geometry.coordinate? axis p =
            some (axis.coordinate target)) := by
  constructor
  · intro t active l bound hSolving hBorrowed hConfig hBuild hBind hSatisfied
    obtain ⟨r, hSolve, hRests, hAgain⟩ :=
      solve_rests hKernel hConfig hSolving hBorrowed hBuild hBind hSatisfied
    refine ⟨r, hRests, hSolve, ?_, fun hCallback => ?_, fun active' hActive => ?_⟩
    · rw [hSolve]
      exact (report_settle k t r).1
    · obtain ⟨r', hRun, hRests'⟩ := hAgain none fun p hp => absurd hp (by simp)
      obtain ⟨hFirst, hSecond⟩ := sketch_solve_solve hBorrowed hCallback hSolve hRun
      rw [hFirst, hSecond]
      exact ⟨hRests.geometry, hRests'.geometry⟩
    · rw [hRests.geometry]
      exact hAgain active' hActive
  · intro t p target moved l bound hSolving hBorrowed hConfig hMoved hBuild hBind hSatisfied axis
      hFree
    obtain ⟨r, hDrag, hRests, hCoordinate⟩ :=
      drag_lands hKernel hConfig hSolving hBorrowed hMoved hBuild hBind hSatisfied hFree
    refine ⟨r, hRests, hDrag, hCoordinate, fun hCallback => ?_⟩
    obtain ⟨g, -, rfl⟩ := Option.map_eq_some_iff.mp hMoved
    rw [hDrag, settle_of_callback_none (t := t.setGeometry g) hCallback]
    exact hCoordinate

/-- The bar drawn too short, with a fixed start about which it can turn. -/
noncomputable def swing : Session ℝ Unit :=
  { (Session.new .default) with
    sketch :=
      ⟨⟨[⟨⟨0⟩, ⟨0, 0⟩, ⟨1, 0⟩⟩], []⟩,
        ⟨⟨⟨1⟩, .fixed, [.point (.start ⟨0⟩)]⟩ :: bar.constraints.items, .zero⟩⟩ }

theorem admissible_swing : swing.config.Admissible := by
  constructor <;> norm_num [swing, Session.new, Config.default]

/-- Nothing is tied to the end that turns. -/
theorem apart_swing (axis : Axis) : ∀ q ∈ Linkage.fixedPoints swing.sketch.constraints.items,
    ¬ Linkage.SameGroup swing.sketch.constraints.items axis (.stop ⟨0⟩) q := by
  have hAlone : ∀ p q, Linkage.SameGroup swing.sketch.constraints.items axis p q → p = q := by
    intro p q h
    induction h with
    | rel p q hTied =>
      obtain ⟨c, hc, hAxis, -⟩ := hTied
      rcases List.mem_cons.mp hc with rfl | hc
      · cases hAxis
      · obtain rfl := List.mem_singleton.mp hc
        cases hAxis
    | refl p => rfl
    | symm p q _ ih => exact ih.symm
    | trans p q r _ _ ih ih' => exact ih.trans ih'
  intro q hq hGroup
  obtain rfl := hAlone _ _ hGroup
  exact absurd hq (by decide)

/-- The end is moved to where the length holds. -/
theorem exists_build_swing : ∃ moved l bound, swing.setPoint? (.stop ⟨0⟩) ⟨3, 4⟩ = some moved ∧
    Linkage.build moved.sketch.geometry swing.sketch.constraints.items (some (.stop ⟨0⟩)) = .ok l ∧
    Solve.bindAll moved.sketch.geometry l swing.sketch.constraints.items = .ok bound ∧
    Solve.Satisfied moved.sketch.geometry swing.sketch.constraints.items l := by
  refine ⟨_, _, _, rfl, rfl, rfl, fun c hc _ b hBound => ?_⟩
  rcases List.mem_cons.mp hc with rfl | hc
  · exact absurd hBound (by simp [Residual.bind, ConstraintKind.hasResidual])
  · obtain rfl := List.mem_singleton.mp hc
    obtain rfl := Option.some.inj (Except.ok.inj hBound)
    exact value_bar

theorem rests_and_lands_swing :
    ∃ moved r, swing.drag Kernel.exact (.stop ⟨0⟩) ⟨3, 4⟩ =
        (settle (notify Kernel.exact) moved r, true) ∧
      r.report.converged = true ∧ r.report.iterations = 0 ∧
      r.sketch.geometry.coordinate? .x (.stop ⟨0⟩) = some 3 ∧
      (swing.drag Kernel.exact (.stop ⟨0⟩) ⟨3, 4⟩).1.sketch.geometry.coordinate? .y (.stop ⟨0⟩) =
        some 4 ∧
      ((moved.solve Kernel.exact (some (.stop ⟨0⟩))).1.solve Kernel.exact none).1.sketch.geometry =
        (moved.solve Kernel.exact (some (.stop ⟨0⟩))).1.sketch.geometry := by
  obtain ⟨moved, l, bound, hMoved, hBuild, hBind, hSatisfied⟩ := exists_build_swing
  obtain ⟨hSolve, hDrag⟩ := rests_and_lands (ω := Unit) Kernel.keepsZero_exact
  obtain ⟨r, hRests, hEq, hX, -⟩ := hDrag swing _ _ moved l bound rfl rfl admissible_swing hMoved
    hBuild hBind hSatisfied .x (apart_swing .x)
  obtain ⟨-, -, -, -, hY⟩ := hDrag swing _ _ moved l bound rfl rfl admissible_swing hMoved
    hBuild hBind hSatisfied .y (apart_swing .y)
  refine ⟨moved, r, hEq, hRests.converged, hRests.iterations, hX, hY rfl, ?_⟩
  obtain ⟨g, -, rfl⟩ := Option.map_eq_some_iff.mp hMoved
  obtain ⟨-, -, -, -, hStill, -⟩ := hSolve (swing.setGeometry g) (some (.stop ⟨0⟩)) l bound rfl rfl
    admissible_swing hBuild hBind hSatisfied
  obtain ⟨hFirst, hSecond⟩ := hStill rfl
  rw [hFirst, hSecond]

end Session

end PlaneSketch
