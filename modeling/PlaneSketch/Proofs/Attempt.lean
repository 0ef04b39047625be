import PlaneSketch.Proofs.Linkage.Checked
import PlaneSketch.Proofs.Report

/-!
# Attempts to solve

Any sketch may be handed to a solver, also one that no edit would make: with operands that name
nothing, or of a shape that no kind admits.  An attempt may come to nothing, but then it has changed
nothing, and on its way it has not looked beyond the end of any list.

* `Checked.run_eq`: **a solve looks up no index out of range, whether it succeeds or not.**
* `Checked.evaluate_eq`: nor does any evaluation of its problem, in whatever order they come.
* `Session.solve_or_drag_atomic`: **a solve or a drag is completed, or nothing happens.**
-/

namespace PlaneSketch

/-! ## Solving with every index checked -/

namespace Checked

variable {α : Type} {g : Geometry α} {constraints : List (Constraint α)} {l : Linkage α}
  {active : Option PointRef}

/-- The slots of a constraint are looked up for their links, and then what they link to. -/
def isInactive (l : Linkage α) (g : Geometry α) (c : Constraint α) : Except Stop Bool := do
  let slots := Linkage.bothSlots (c.indices g)
  within l.slots.length slots
  within l.slots.length (slots.map l.representative)
  return l.isInactive g c

def bindAll (g : Geometry α) (l : Linkage α) :
    List (Constraint α) → Except Stop (List (Residual α) × Nat)
  | [] => .ok ([], 0)
  | c :: rest => do
    if ← isInactive l g c then
      let (equations, inactive) ← bindAll g l rest
      return (equations, inactive + 1)
    else
      let bound ← refusing (Residual.bind g c.kind c.operands)
      let (equations, inactive) ← bindAll g l rest
      return (bound.toList ++ equations, inactive)

section Evaluate

variable [Scalar α]

def value (g : Geometry α) (r : Residual α) : Except Stop α :=
  match r.value? g with
  | some v => .ok v
  | none => .error .outOfRange

def objective (target : Option (Nat × Vec2 α)) (g : Geometry α) : Except Stop α := do
  within g.pointCount (target.toList.map (·.1))
  return Solve.objective target g

/-- One evaluation of the objective and of every equation, at a vector that is written to the
geometry first. -/
def evaluate (l : Linkage α) (g : Geometry α) (equations : List (Residual α))
    (target : Option (Nat × Vec2 α)) (vars : Array α) : Except Stop (α × List α) := do
  let g ← scatter l g vars
  let distance ← objective target g
  let values ← equations.mapM (value g)
  return (distance, values)

/-- A solve.  The evaluations that its minimisation asks for are not checked here but by
`evaluate`, which may be asked for any of them. -/
def run (k : Kernel α) (config : Config α) (s : Sketch α) (active : Option PointRef) :
    Except Stop (Solved α) := do
  let target := Solve.snapshot? s.geometry active
  within s.geometry.pointCount (target.toList.map (·.1))
  let l ← build s.geometry s.constraints.items active
  let (equations, inactive) ← bindAll s.geometry l s.constraints.items
  let constraints := s.constraints.refreshCounters inactive
  let guess := l.gather s.geometry
  if guess.size = 0 then
    let g ← scatter l s.geometry guess
    let _ ← equations.mapM (value g)
    return Solve.determined config ⟨g, constraints⟩ equations inactive
  else
    let result := minimize k config (Solve.problem s.geometry l equations target guess.size)
      guess.toVector
    let g ← scatter l s.geometry result.minimization.x.toArray
    return Solve.optimised config ⟨g, constraints⟩ equations.length inactive result

end Evaluate

/-! ### Bindings -/

theorem isInactive_eq [Zero α] (h : Linkage.build g constraints active = .ok l)
    (c : Constraint α) : isInactive l g c = .ok (l.isInactive g c) := by
  have hLinked := Linkage.linked_of_build h
  have hSlots : ∀ s ∈ Linkage.bothSlots (c.indices g), s < 2 * g.pointCount :=
    Linkage.bothSlots_lt fun p hp => Constraint.indices_lt hp
  have hIn : ∀ s ∈ Linkage.bothSlots (c.indices g), s < l.slots.length :=
    fun s hs => Nat.lt_of_lt_of_le (hSlots s hs) hLinked.length_le
  have hRepresentatives : ∀ s ∈ (Linkage.bothSlots (c.indices g)).map l.representative,
      s < l.slots.length :=
    List.forall_mem_map.mpr fun s hs => hLinked.representative_lt_length (hSlots s hs)
  rw [isInactive]
  simp only [within_of_forall hIn, within_of_forall hRepresentatives]
  rfl

theorem bindAll_eq [Zero α] (h : Linkage.build g constraints active = .ok l)
    (cs : List (Constraint α)) : bindAll g l cs = refusing (Solve.bindAll g l cs) := by
  induction cs with
  | nil => rfl
  | cons c rest ih =>
    rw [bindAll, Solve.bindAll, isInactive_eq h]
    show (if l.isInactive g c = true then _ else _) = _
    split
    · rw [ih]
      exact bind_eq_refusing_map fun b _ => rfl
    · refine bind_eq_refusing rfl fun bound _ => ?_
      exact bind_eq_refusing ih fun b _ => rfl

/-! ### Evaluations -/

section Evaluate

variable [Scalar α] {equations : List (Residual α)} {inactive : Nat}

/-- The equations of a sketch can be evaluated wherever it moves. -/
theorem mapM_value_eq {g' : Geometry α} (hBind : Solve.bindAll g l constraints =
    .ok (equations, inactive)) (hIds : g.SameIds g') :
    equations.mapM (value g') = .ok (equations.map (·.value g')) := by
  have hValue : ∀ b ∈ equations, value g' b = .ok (b.value g') := by
    intro b hb
    obtain ⟨c, -, hBound⟩ := (Solve.binds_of_bindAll _ hBind).1.exists_bind b hb
    obtain ⟨v, hv⟩ := Option.isSome_iff_exists.mp (Residual.isSome_value?_of_bind hBound hIds)
    rw [value, Residual.value, hv]
    rfl
  clear hBind
  induction equations with
  | nil => rfl
  | cons b rest ih =>
    obtain ⟨hFirst, hRest⟩ := List.forall_mem_cons.mp hValue
    rw [List.mapM_cons, hFirst, ih hRest]
    rfl

omit [Scalar α] in
theorem snapshot?_lt {active : Option PointRef} :
    ∀ i ∈ (Solve.snapshot? g active).toList.map (·.1), i < g.pointCount := by
  intro i hi
  obtain ⟨⟨index, target⟩, hMem, rfl⟩ := List.mem_map.mp hi
  obtain ⟨p, -, hp, -⟩ := Solve.exists_of_snapshot? (Option.mem_toList.mp hMem)
  exact Geometry.pointIndex?_lt hp

/-- **No evaluation looks up an index out of range**, whichever vectors were written before. -/
theorem evaluate_eq (h : Linkage.build g constraints active = .ok l)
    (hBind : Solve.bindAll g l constraints = .ok (equations, inactive))
    {target : Option (Nat × Vec2 α)}
    (hTarget : ∀ i ∈ target.toList.map (·.1), i < g.pointCount)
    {g' : Geometry α} (hIds : g'.SameIds g) {vars : Array α}
    (hSize : vars.size = l.degreesOfFreedom) :
    evaluate l g' equations target vars =
      .ok (Solve.objective target (l.scatter g' vars),
        equations.map (·.value (l.scatter g' vars))) := by
  have hScattered : (l.scatter g' vars).SameIds g :=
    (Linkage.sameIds_scatter l g' vars).trans hIds
  have hPoint : ∀ i ∈ target.toList.map (·.1), i < (l.scatter g' vars).pointCount :=
    fun i hi => hScattered.pointCount ▸ hTarget i hi
  rw [evaluate, scatter_eq h hIds hSize]
  show (objective target (l.scatter g' vars) >>= _) = _
  rw [objective, within_of_forall hPoint]
  show (equations.mapM (value (l.scatter g' vars)) >>= _) = _
  rw [mapM_value_eq hBind hScattered.symm]
  rfl

/-- **A solve looks up no index out of range, whether it succeeds or not.** -/
theorem run_eq (k : Kernel α) (config : Config α) (s : Sketch α) (active : Option PointRef) :
    run k config s active = refusing (Solve.run k config s active) := by
  rw [run, Solve.run]
  simp only [within_of_forall snapshot?_lt]
  refine bind_eq_refusing (build_eq s.geometry s.constraints.items active) fun l hBuild => ?_
  refine bind_eq_refusing (bindAll_eq hBuild s.constraints.items) fun bound hBind => ?_
  obtain ⟨equations, inactive⟩ := bound
  have hGuess : (l.gather s.geometry).size = l.degreesOfFreedom :=
    Linkage.size_gather_of_build hBuild (.refl s.geometry)
  dsimp only
  split
  · rw [scatter_eq hBuild (.refl s.geometry) hGuess]
    show (equations.mapM (value (l.scatter s.geometry (l.gather s.geometry))) >>= _) = _
    rw [mapM_value_eq hBind (Linkage.sameIds_scatter l s.geometry _).symm]
    rfl
  · rw [scatter_eq hBuild (.refl s.geometry) (by rw [Vector.size_toArray, hGuess])]
    rfl

/-- A solve and all the evaluations that it may make look up no index out of range. -/
structure InRange (k : Kernel α) (config : Config α) (s : Sketch α) (active : Option PointRef) :
    Prop where
  run : run k config s active = refusing (Solve.run k config s active)
  evaluate : ∀ l equations inactive,
    Linkage.build s.geometry s.constraints.items active = .ok l →
    Solve.bindAll s.geometry l s.constraints.items = .ok (equations, inactive) →
    ∀ (history : List (Vector α l.degreesOfFreedom)) (x : Vector α l.degreesOfFreedom),
      let target := Solve.snapshot? s.geometry active
      let p := Solve.problem s.geometry l equations target l.degreesOfFreedom
      evaluate l (Solve.live l s.geometry history) equations target x.toArray =
        .ok (p.objective x, (p.residuals x).toList)

theorem inRange (k : Kernel α) (config : Config α) (s : Sketch α) (active : Option PointRef) :
    InRange k config s active where
  run := run_eq k config s active
  evaluate := by
    intro l equations inactive hBuild hBind history x target p
    have hLast : l.scatter (Solve.live l s.geometry history) x.toArray =
        l.scatter s.geometry x.toArray :=
      Linkage.scatter_eq_of_sameIds hBuild (Solve.sameIds_live l s.geometry history) x.size_toArray
    rw [evaluate_eq hBuild hBind snapshot?_lt (Solve.sameIds_live l s.geometry history)
      x.size_toArray, hLast]
    exact congrArg (fun distance => Except.ok (distance, _))
      (Solve.objective_scatter s.geometry l equations target x)

end Evaluate

end Checked

/-! ## Attempts -/

namespace Session

variable {α ω : Type} [Scalar α] {t : Session α ω}

theorem solve_completes_of_setPoint? {k : Kernel α} (hSolving : t.solving = false)
    (hBorrowed : t.borrowed = false) {moved : Session α ω} {p : PointRef} {target : Vec2 α}
    (hMoved : t.setPoint? p target = some moved) : (moved.solve k (some p)).2 = true ↔
      ∃ r, Solve.run k moved.config moved.sketch (some p) = .ok r := by
  obtain ⟨g, -, rfl⟩ := Option.map_eq_some_iff.mp hMoved
  rw [solve, solveNotifying_completes_iff]
  exact ⟨fun h => h.2.2, fun h => ⟨hSolving, hBorrowed, h⟩⟩

/-- **A drag is completed if the point is not fixed and the solve around it is completed.** -/
theorem drag_completes_iff (k : Kernel α) (hSolving : t.solving = false)
    (hBorrowed : t.borrowed = false) (p : PointRef) (target : Vec2 α) :
    (t.drag k p target).2 = true ↔ t.sketch.constraints.fixes p = false ∧
      ∃ moved, t.setPoint? p target = some moved ∧ (moved.solve k (some p)).2 = true := by
  rw [drag]
  constructor
  · intro hCompleted
    rcases drag_cases k hSolving hBorrowed p target with ⟨-, e, hRefused⟩ |
      ⟨hFree, moved, hMoved, ⟨r, hRun, -⟩ | ⟨e, -, hSkipped⟩⟩
    · exact absurd hCompleted (by simp [hRefused])
    · exact ⟨hFree, moved, hMoved,
        (solve_completes_of_setPoint? hSolving hBorrowed hMoved).mpr ⟨r, hRun⟩⟩
    · exact absurd hCompleted (by simp [hSkipped])
  · rintro ⟨hFree, moved, hMoved, hSolved⟩
    obtain ⟨r, hRun⟩ := (solve_completes_of_setPoint? hSolving hBorrowed hMoved).mp hSolved
    rw [dragNotifying_of_run hSolving hBorrowed hFree hMoved hRun]

/-- Whatever the callback would do, a request changes nothing but the log, and says so. -/
def Refuses (t : Session α ω)
    (request : (Session α ω → Session α ω) → Session α ω × Bool) : Prop :=
  ∃ e, ∀ notify, request notify = (t.log e, false)

/-- **A solve or a drag is completed, or nothing happens**, whatever the sketch is.  Neither looks
up an index out of range. -/
theorem solve_or_drag_atomic (k : Kernel α) (hSolving : t.solving = false)
    (hBorrowed : t.borrowed = false) :
    (∀ active, Checked.InRange k t.config t.sketch active ∧
      ((∃ r, Solve.run k t.config t.sketch active = .ok r ∧
          t.solve k active = (settle (notify k) t r, true)) ∨
        Refuses t (solveNotifying k · t active))) ∧
    ∀ p target,
      (∀ i, t.sketch.geometry.pointIndex? p = some i → i < t.sketch.geometry.pointCount) ∧
      (∀ moved, t.setPoint? p target = some moved →
        Checked.InRange k moved.config moved.sketch (some p)) ∧
      ((∃ moved r, t.setPoint? p target = some moved ∧
          Solve.run k moved.config moved.sketch (some p) = .ok r ∧
          t.drag k p target = (settle (notify k) moved r, true)) ∨
        Refuses t (dragNotifying k · t p target)) ∧
      ((t.drag k p target).2 = true ↔ t.sketch.constraints.fixes p = false ∧
        ∃ moved, t.setPoint? p target = some moved ∧ (moved.solve k (some p)).2 = true) := by
  refine ⟨fun active => ⟨Checked.inRange _ _ _ _, ?_⟩, fun p target =>
    ⟨fun i hi => Geometry.pointIndex?_lt hi, fun moved _ => Checked.inRange _ _ _ _, ?_,
      drag_completes_iff k hSolving hBorrowed p target⟩⟩
  · rcases solve_cases k hSolving hBorrowed active with ⟨r, hRun, hSolve⟩ | ⟨e, -, hSkipped⟩
    · exact Or.inl ⟨r, hRun, hSolve _⟩
    · exact Or.inr ⟨.solveSkipped e, hSkipped⟩
  · rcases drag_cases k hSolving hBorrowed p target with ⟨-, e, hRefused⟩ |
      ⟨-, moved, hMoved, ⟨r, hRun, hDrag⟩ | ⟨e, -, hSkipped⟩⟩
    · exact Or.inr ⟨e, hRefused⟩
    · exact Or.inl ⟨moved, r, hMoved, hRun, hDrag _⟩
    · exact Or.inr ⟨.solveSkipped e, hSkipped⟩

/-- A segment, and a length of a segment that does not exist. -/
def dangling : Session Float Unit :=
  { (Session.new .default) with
    sketch :=
      ⟨⟨[⟨⟨0⟩, ⟨0, 0⟩, ⟨10, 0⟩⟩], []⟩,
        ⟨[⟨⟨0⟩, .length, [.segment ⟨1⟩, .value 5]⟩], .zero⟩⟩ }

theorem solve_or_drag_atomic_dangling :
    Refuses dangling (dragNotifying Kernel.float · dangling (.stop ⟨0⟩) ⟨3, 4⟩) ∧
    ∃ r, joined.solve Kernel.float none = (settle (notify Kernel.float) joined r, true) := by
  have hDangling : (dangling.drag Kernel.float (.stop ⟨0⟩) ⟨3, 4⟩).2 = false := rfl
  have hJoined : (joined.solve Kernel.float none).2 = true := rfl
  obtain ⟨-, hDrag⟩ := solve_or_drag_atomic (t := dangling) Kernel.float rfl rfl
  obtain ⟨hSolve, -⟩ := solve_or_drag_atomic (t := joined) Kernel.float rfl rfl
  obtain ⟨-, -, ⟨moved, r, -, -, hCompleted⟩ | hRefused, -⟩ := hDrag (.stop ⟨0⟩) ⟨3, 4⟩
  · exact absurd hDangling (by simp [hCompleted])
  · obtain ⟨-, ⟨r, -, hCompleted⟩ | ⟨e, hSkipped⟩⟩ := hSolve none
    · exact ⟨hRefused, r, hCompleted⟩
    · exact absurd hJoined (by simp [solve, hSkipped])

end Session

end PlaneSketch
