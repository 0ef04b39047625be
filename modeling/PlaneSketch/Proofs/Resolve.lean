import PlaneSketch.Proofs.Linkage.RoundTrip
import PlaneSketch.Proofs.Solve

/-!
# Solving a sketch that was solved

* `Solve.exists_scatter_of_run`: a solve scatters a vector of as many variables as its linkage has.
* `Solve.rebuild_of_run`: **a solve starts from where the one before it ended**, in the same order
  of variables, and substitution alone moves nothing.
-/

namespace PlaneSketch.Solve

variable {α : Type} [Scalar α]

/-- A solve scatters a vector of as many variables as its linkage has. -/
theorem exists_scatter_of_run {k : Kernel α} {config : Config α} {s : Sketch α}
    {active : Option PointRef} {r : Solved α} (h : run k config s active = .ok r) :
    ∃ l vars, Linkage.build s.geometry s.constraints.items active = .ok l ∧
      vars.size = l.degreesOfFreedom ∧ r.sketch.geometry = l.scatter s.geometry vars ∧
      r.sketch.constraints.items = s.constraints.items := by
  obtain ⟨l, residuals, inactive, hBuild, -, rfl⟩ := (run_eq_ok_iff r).mp h
  have hSize := Linkage.size_gather_of_build hBuild (.refl s.geometry)
  rw [outcome]
  split
  · exact ⟨l, _, hBuild, hSize, rfl, rfl⟩
  · exact ⟨l, _, hBuild, by rw [Vector.size_toArray, hSize], rfl, rfl⟩

/-- **A solve starts from where the one before it ended.**  A build on what any vector of variables
was written back to takes up this vector, in the same order, and writes the same geometry; so does
one on what a solve has left, whichever point is dragged. -/
theorem rebuild_of_run :
    (∀ {g : Geometry α} {constraints : List (Constraint α)} {active : Option PointRef}
      {l : Linkage α}, Linkage.build g constraints active = .ok l →
      ∀ vars : Array α, vars.size = l.degreesOfFreedom →
      ∀ active' : Option PointRef, (∀ p, active' = some p → (g.point? p).isSome) →
        ∃ l', Linkage.build (l.scatter g vars) constraints active' = .ok l' ∧
          l'.slots.links = l.slots.links ∧
          l'.gather (l.scatter g vars) = vars ∧
          l'.scatter (l.scatter g vars) vars = l.scatter g vars) ∧
    ∀ (k : Kernel α) (config : Config α) (s : Sketch α) (active : Option PointRef)
      (r : Solved α), run k config s active = .ok r →
      ∀ active' : Option PointRef, (∀ p, active' = some p → (s.geometry.point? p).isSome) →
        ∃ l l', Linkage.build s.geometry s.constraints.items active = .ok l ∧
          Linkage.build r.sketch.geometry r.sketch.constraints.items active' = .ok l' ∧
          l'.slots.links = l.slots.links ∧
          l'.scatter r.sketch.geometry (l'.gather r.sketch.geometry) = r.sketch.geometry := by
  constructor
  · intro g constraints active l hBuild vars hSize active' hActive
    exact Linkage.rebuild_scatter hBuild hSize fun p hp =>
      (g.isSome_pointIndex?_iff p).mpr (hActive p hp)
  intro k config s active r hRun active' hActive
  obtain ⟨l, vars, hBuild, hSize, hGeometry, hItems⟩ := exists_scatter_of_run hRun
  obtain ⟨l', hBuild', hLinks, hGather, hScatter⟩ :=
    Linkage.rebuild_scatter hBuild hSize fun p hp =>
      (s.geometry.isSome_pointIndex?_iff p).mpr (hActive p hp)
  rw [hGeometry, hItems]
  exact ⟨l, l', hBuild, hBuild', hLinks, by rw [hGather, hScatter]⟩

theorem rebuild_of_run_joined :
    (∃ l, Linkage.build Session.joined.sketch.geometry Session.joined.sketch.constraints.items
        (some (.stop ⟨1⟩)) = .ok l ∧
      ∃ l', Linkage.build (l.scatter Session.joined.sketch.geometry #[7, 8, 9])
          Session.joined.sketch.constraints.items (some (.start ⟨1⟩)) = .ok l' ∧
        l'.slots.links = l.slots.links ∧
        l'.gather (l.scatter Session.joined.sketch.geometry #[7, 8, 9]) = #[7, 8, 9] ∧
        l'.scatter (l.scatter Session.joined.sketch.geometry #[7, 8, 9]) #[7, 8, 9] =
          l.scatter Session.joined.sketch.geometry #[7, 8, 9]) ∧
    ∃ r l', run Kernel.float .default Session.joined.sketch none = .ok r ∧
      Linkage.build r.sketch.geometry r.sketch.constraints.items none = .ok l' ∧
      l'.scatter r.sketch.geometry (l'.gather r.sketch.geometry) = r.sketch.geometry := by
  obtain ⟨l, hBuild⟩ : ∃ l, Linkage.build Session.joined.sketch.geometry
      Session.joined.sketch.constraints.items (some (.stop ⟨1⟩)) = .ok l := ⟨_, rfl⟩
  obtain ⟨r, hRun⟩ : ∃ r, run Kernel.float .default Session.joined.sketch none = .ok r := ⟨_, rfl⟩
  have hSize : (#[7, 8, 9] : Array Float).size = l.degreesOfFreedom := by
    obtain rfl := Except.ok.inj hBuild
    rfl
  obtain ⟨hVector, hSolve⟩ := rebuild_of_run (α := Float)
  obtain ⟨-, l', -, hBuild', -, hStill⟩ := hSolve Kernel.float .default _ none r hRun none
    (fun p hp => absurd hp (by simp))
  refine ⟨⟨l, hBuild, hVector hBuild _ hSize _ fun p hp => ?_⟩, r, l', hRun, hBuild', hStill⟩
  obtain rfl := Option.some.inj hp
  rfl

end PlaneSketch.Solve
