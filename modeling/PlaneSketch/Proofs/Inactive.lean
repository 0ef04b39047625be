import PlaneSketch.Proofs.Report

/-!
# Constraints with nothing left to adjust

An equation whose segments end in constant points is left out of a solve.

* `Linkage.pointAt?_scatter_of_isPointFixed`: a constant point is written back to one place.
* `Residual.value?_congr_of_bind`: an equation reads nothing but the figures of its operands.
* `Linkage.value?_scatter_of_isInactive`: **an equation that is left out has one and the same value
  whatever the variables are.**
* `Linkage.isInactive_of_bind`: without variables every equation is left out.
* `Session.solve_of_no_variables`: **what a solve without variables reports.**
-/

namespace PlaneSketch

/-! ## What an equation reads -/

namespace Residual

variable {α : Type} {g g' : Geometry α} {kind : ConstraintKind} {operands : List (Operand α)}

/-- The entity behind a resolved operand has the same figure in two geometries. -/
def Bound.SameFigure (g g' : Geometry α) : Bound α → Prop
  | segment i => g.segments[i]?.map (·.figure) = g'.segments[i]?.map (·.figure)
  | arc i => g.arcs[i]?.map (·.figure) = g'.arcs[i]?.map (·.figure)
  | value _ => True

/-- What is read off a figure hangs on the figure alone. -/
theorem bind_figure_congr {σ β : Type} {s s' : Option (Named σ)}
    (hs : s.map (·.figure) = s'.map (·.figure)) {f f' : Named σ → Option β}
    (hf : ∀ a a', a.figure = a'.figure → f a = f' a') : s.bind f = s'.bind f' := by
  cases s with
  | none =>
    rw [Option.map_none, eq_comm, Option.map_eq_none_iff] at hs
    rw [hs]
    rfl
  | some a =>
    rw [Option.map_some, eq_comm, Option.map_eq_some_iff] at hs
    obtain ⟨a', rfl, hFigure⟩ := hs
    exact hf a a' hFigure.symm

/-- The operands of a bound equation are resolved. -/
theorem exists_bindOperand_of_bind {r : Residual α} (h : bind g kind operands = .ok (some r))
    {o : Operand α} (ho : o ∈ operands) : ∃ b, bindOperand g o = .ok (some b) := by
  rcases bind_eq_ok_cases h with ⟨-, hNone⟩ | ⟨-, first, second, a, b, r', rfl, ha, hb, -, -⟩
  · exact absurd hNone (by simp)
  · rcases List.mem_pair.mp ho with rfl | rfl
    · exact ⟨a, ha⟩
    · exact ⟨b, hb⟩

/-- The two operands of an equation, as they were resolved. -/
def bounds : Residual α → Bound α × Bound α
  | parallel a b => (.segment a, .segment b)
  | perpendicular a b => (.segment a, .segment b)
  | equalLength a b => (.segment a, .segment b)
  | equalRadius a b => (.arc a, .arc b)
  | segmentLength s length => (.segment s, .value length)
  | arcRadius a radius => (.arc a, .value radius)
  | arcSegmentTangent a s => (.arc a, .segment s)
  | arcArcTangent a b => (.arc a, .arc b)
  | concentric a b => (.arc a, .arc b)

/-- An equation is made of its operands, which were given in one order or the other. -/
theorem bounds_of_ofBounds? {a b : Bound α} {r : Residual α} (h : ofBounds? kind a b = some r) :
    r.bounds = (a, b) ∨ r.bounds = (b, a) := by
  revert h
  cases kind <;> cases a <;> cases b <;>
    simp only [ofBounds?, reduceCtorEq, false_implies, Option.some.injEq]
  all_goals
    rintro rfl
    simp [bounds]

variable [Scalar α]

/-- **An equation reads nothing but the figures of its operands.** -/
theorem value?_congr {r : Residual α} (h : r.bounds.1.SameFigure g g')
    (h' : r.bounds.2.SameFigure g g') : r.value? g = r.value? g' := by
  cases r with
  | segmentLength s length => exact bind_figure_congr h fun s s' hs => by rw [hs]
  | arcRadius a radius => exact bind_figure_congr h fun a a' ha => by rw [ha]
  | _ => exact bind_figure_congr h fun s s' hs => bind_figure_congr h' fun t t' ht => by rw [hs, ht]

/-- The same of an equation bound to a geometry over the same names. -/
theorem value?_congr_of_bind {r : Residual α} (h : bind g kind operands = .ok (some r))
    {g₁ g₂ : Geometry α} (hSame : ∀ o ∈ operands, ∀ b, bindOperand g o = .ok (some b) →
      b.SameFigure g₁ g₂) : r.value? g₁ = r.value? g₂ := by
  rcases bind_eq_ok_cases h with ⟨-, hNone⟩ | ⟨-, o, o', a, b, r', rfl, ha, hb, hr, hSome⟩
  · exact absurd hNone (by simp)
  · obtain rfl := Option.some.inj hSome
    have hFirst := hSame o (by simp) a ha
    have hSecond := hSame o' (by simp) b hb
    rcases bounds_of_ofBounds? hr with hBounds | hBounds
    · exact value?_congr (by rwa [hBounds]) (by rwa [hBounds])
    · exact value?_congr (by rwa [hBounds]) (by rwa [hBounds])

end Residual

/-! ## Constant points -/

/-- The ends of a segment are the points of its two indices. -/
theorem Geometry.pointAt?_segment {α : Type} (g : Geometry α) {i : Nat}
    (hi : i < g.segments.length) :
    g.pointAt? (2 * i) = some g.segments[i].figure.p1 ∧
      g.pointAt? (2 * i + 1) = some g.segments[i].figure.p2 := by
  have hFirst : 2 * i / 2 = i := by omega
  have hSecond : (2 * i + 1) / 2 = i := by omega
  constructor
  · rw [pointAt?, hFirst, if_pos hi, List.getElem?_eq_getElem hi, Option.map_some,
      if_pos (by omega)]
  · rw [pointAt?, hSecond, if_pos hi, List.getElem?_eq_getElem hi, Option.map_some,
      if_neg (by omega)]

/-- A segment with the same ends has the same figure. -/
theorem Geometry.figure_segment_congr {α : Type} {g g' : Geometry α} {i : Nat}
    (hi : i < g.segments.length) (hi' : i < g'.segments.length)
    (h : ∀ e : Endpoint, g.pointAt? (2 * i + e.offset) = g'.pointAt? (2 * i + e.offset)) :
    g.segments[i]?.map (·.figure) = g'.segments[i]?.map (·.figure) := by
  have hStart := h .start
  have hStop := h .stop
  simp only [Endpoint.offset, Nat.add_zero, (g.pointAt?_segment hi).1, (g'.pointAt?_segment hi').1,
    (g.pointAt?_segment hi).2, (g'.pointAt?_segment hi').2, Option.some.injEq] at hStart hStop
  rw [List.getElem?_eq_getElem hi, List.getElem?_eq_getElem hi', Option.map_some, Option.map_some,
    Option.some.injEq]
  exact congrArg₂ Segment.mk hStart hStop

namespace Linkage

variable {α : Type} {g g₁ g₂ : Geometry α} {constraints : List (Constraint α)}
  {active : Option PointRef} {l : Linkage α}

/-- A resolved segment of a constraint that is left out has constant ends, and there is no arc. -/
theorem isPointFixed_of_isInactive {c : Constraint α} (h : l.isInactive g c = true) {o : Operand α}
    (ho : o ∈ c.operands) {b : Residual.Bound α} (hb : Residual.bindOperand g o = .ok (some b)) :
    (∃ i, b = .segment i ∧ ∀ e : Endpoint, l.isPointFixed (2 * i + e.offset) = true) ∨
      ∃ v, b = .value v := by
  rw [isInactive, Bool.and_eq_true, List.all_eq_true] at h
  have hFixed := h.2 o ho
  cases Residual.resolves_of_bindOperand hb with
  | arc hIndex => exact absurd hFixed (by simp)
  | value v => exact Or.inr ⟨v, rfl⟩
  | @segment id i hIndex =>
    have hEnd : ∀ e : Endpoint, g.pointIndex? ⟨id, e⟩ = some (2 * i + e.offset) := by
      intro e
      rw [Geometry.pointIndex?, hIndex]
    refine Or.inl ⟨i, rfl, fun e => ?_⟩
    simp only [PointRef.start, PointRef.stop, hEnd, Option.any_some, Bool.and_eq_true] at hFixed
    cases e with
    | start => exact hFixed.1
    | stop => exact hFixed.2

section Built

variable [Zero α]

/-- **A constant point is written back to one place**, whatever the variables are. -/
theorem pointAt?_scatter_of_isPointFixed (h : build g constraints active = .ok l) {i : Nat}
    (hi : i < g.pointCount) (hFixed : l.isPointFixed i = true) (hIds₁ : g₁.SameIds g)
    (hIds₂ : g₂.SameIds g) (vars₁ vars₂ : Array α) :
    (l.scatter g₁ vars₁).pointAt? i = (l.scatter g₂ vars₂).pointAt? i := by
  refine Geometry.pointAt?_congr fun axis => ?_
  have hSlot : axis.slot i < 2 * g.pointCount := slot_lt hi
  have hLink : l.slots.link? (l.representative (axis.slot i)) = some .fixed := by
    rw [link?_representative_eq_fixed_iff h hSlot]
    exact (isPointFixed_iff h hi).mp hFixed axis
  obtain ⟨v, hv⟩ := Slots.value?_isSome ((linked_of_build h).representative_lt_length hSlot)
  rw [coordinateAt?_scatter h hIds₁ hSlot, coordinateAt?_scatter h hIds₂ hSlot,
    source?_of_fixed hLink hv]
  rfl

theorem sameFigure_scatter_of_isInactive (h : build g constraints active = .ok l)
    {c : Constraint α} (hInactive : l.isInactive g c = true) {o : Operand α} (ho : o ∈ c.operands)
    {b : Residual.Bound α} (hb : Residual.bindOperand g o = .ok (some b)) (hIds₁ : g₁.SameIds g)
    (hIds₂ : g₂.SameIds g) (vars₁ vars₂ : Array α) :
    b.SameFigure (l.scatter g₁ vars₁) (l.scatter g₂ vars₂) := by
  have hRange := Residual.inRange_of_bindOperand hb
  rcases isPointFixed_of_isInactive hInactive ho hb with ⟨i, rfl, hFixed⟩ | ⟨v, rfl⟩
  · have hi : i < g.segments.length := hRange
    refine Geometry.figure_segment_congr ?_ ?_ fun e => ?_
    · rwa [((sameIds_scatter l g₁ vars₁).trans hIds₁).length_segments]
    · rwa [((sameIds_scatter l g₂ vars₂).trans hIds₂).length_segments]
    · refine pointAt?_scatter_of_isPointFixed h ?_ (hFixed e) hIds₁ hIds₂ vars₁ vars₂
      have hOffset := e.offset_lt
      rw [Geometry.pointCount]
      omega
  · exact trivial

end Built

section Value

variable [Scalar α]

/-- **An equation that is left out has one and the same value whatever the variables are**, and
wherever the points were before they were written. -/
theorem value?_scatter_of_isInactive (h : build g constraints active = .ok l) {c : Constraint α}
    (hInactive : l.isInactive g c = true) {r : Residual α}
    (hBind : Residual.bind g c.kind c.operands = .ok (some r)) :
    ∃ x, ∀ g', g'.SameIds g → ∀ vars, r.value? (l.scatter g' vars) = some x := by
  obtain ⟨x, hx⟩ := Option.isSome_iff_exists.mp
    (Residual.isSome_value?_of_bind hBind (sameIds_scatter l g #[]).symm)
  refine ⟨x, fun g' hIds vars => ?_⟩
  rw [← hx]
  exact Residual.value?_congr_of_bind hBind fun o ho b hb =>
    sameFigure_scatter_of_isInactive h hInactive ho hb hIds (.refl g) vars #[]

/-- Two segments, of which the first one stands still: one end is fixed, the other one shares a
point with the second segment, where that is fixed. -/
def anchored : Sketch Float :=
  ⟨⟨[⟨⟨0⟩, ⟨0, 0⟩, ⟨3, 4⟩⟩, ⟨⟨1⟩, ⟨6, 8⟩, ⟨9, 8⟩⟩], []⟩,
    ⟨[⟨⟨0⟩, .coincidence, [.point (.stop ⟨0⟩), .point (.start ⟨1⟩)]⟩,
      ⟨⟨1⟩, .fixed, [.point (.start ⟨1⟩)]⟩,
      ⟨⟨2⟩, .fixed, [.point (.start ⟨0⟩)]⟩,
      ⟨⟨3⟩, .length, [.value 10, .segment ⟨0⟩]⟩], .zero⟩⟩

theorem value?_scatter_of_isInactive_anchored :
    ∃ l r, build anchored.geometry anchored.constraints.items (some (.stop ⟨1⟩)) = .ok l ∧
      l.isInactive anchored.geometry ⟨⟨3⟩, .length, [.value 10, .segment ⟨0⟩]⟩ = true ∧
      Residual.bind anchored.geometry .length [.value 10, .segment ⟨0⟩] = .ok (some r) ∧
      ∃ x, ∀ g', g'.SameIds anchored.geometry → ∀ vars,
        r.value? (l.scatter g' vars) = some x := by
  obtain ⟨l, hBuild⟩ : ∃ l, build anchored.geometry anchored.constraints.items
      (some (.stop ⟨1⟩)) = .ok l := ⟨_, rfl⟩
  have hInactive : l.isInactive anchored.geometry
      ⟨⟨3⟩, .length, [.value 10, .segment ⟨0⟩]⟩ = true := by
    obtain rfl := Except.ok.inj hBuild
    rfl
  exact ⟨l, .segmentLength 0 10, hBuild, hInactive, rfl,
    value?_scatter_of_isInactive hBuild hInactive rfl⟩

end Value

/-! ## Without variables -/

/-- Without variables every slot reads a constant. -/
theorem isPointFixed_of_no_variables [Zero α] (h : build g constraints active = .ok l)
    (hNone : l.degreesOfFreedom = 0) {i : Nat} (hi : i < g.pointCount) :
    l.isPointFixed i = true := by
  have hFixed : ∀ axis : Axis,
      l.slots.link? (l.representative (axis.slot i)) = some .fixed := by
    intro axis
    refine ((linked_of_build h).holds_representative (slot_lt hi)).resolve_left fun hBase => ?_
    have hLt := freeBefore_lt hBase
    rw [degreesOfFreedom] at hNone
    omega
  rw [isPointFixed_iff h hi]
  intro axis
  exact (link?_representative_eq_fixed_iff h (slot_lt hi)).mp (hFixed axis)

/-- **Without variables every equation is left out.** -/
theorem isInactive_of_bind [Zero α] (h : build g constraints active = .ok l)
    (hNone : l.degreesOfFreedom = 0) {c : Constraint α} {r : Residual α}
    (hBind : Residual.bind g c.kind c.operands = .ok (some r)) : l.isInactive g c = true := by
  have hNoArcs : g.arcs.length = 0 := by
    rw [degreesOfFreedom, arcCount_of_build h] at hNone
    omega
  have hPoint : ∀ p, (g.pointIndex? p).isSome → (g.pointIndex? p).any l.isPointFixed = true := by
    intro p hp
    obtain ⟨i, hi⟩ := Option.isSome_iff_exists.mp hp
    rw [hi, Option.any_some]
    exact isPointFixed_of_no_variables h hNone (Geometry.pointIndex?_lt hi)
  rw [isInactive, Bool.and_eq_true, List.all_eq_true]
  refine ⟨(Residual.isSome_of_bind hBind).symm, fun o ho => ?_⟩
  obtain ⟨b, hb⟩ := Residual.exists_bindOperand_of_bind hBind ho
  cases Residual.resolves_of_bindOperand hb with
  | value v => rfl
  | @segment id i hIndex =>
    have hHas : ∀ e : Endpoint, (g.pointIndex? ⟨id, e⟩).isSome := by
      intro e
      rw [Geometry.pointIndex?, hIndex]
      rfl
    rw [Bool.and_eq_true]
    exact ⟨hPoint _ (hHas .start), hPoint _ (hHas .stop)⟩
  | arc hIndex =>
    -- there is no arc that it could be
    have hi := (List.findIdx?_eq_some_iff_getElem.mp hIndex).1
    omega

end Linkage

/-! ## Solving without variables -/

namespace Solve

variable {α : Type} [Scalar α] {k : Kernel α} {config : Config α} {s : Sketch α}
  {active : Option PointRef}

omit [Scalar α] in
/-- Without variables nothing is left for a method to solve. -/
theorem adjustable_of_no_variables [Zero α] {g : Geometry α} {constraints : List (Constraint α)}
    {l : Linkage α} {equations : List (Residual α)} (h : Linkage.build g constraints active = .ok l)
    (hNone : l.degreesOfFreedom = 0) (hBinds : Binds g l constraints equations) :
    equations = [] ∧ adjustable g l constraints = [] := by
  have hEquations : equations = [] := by
    rw [List.eq_nil_iff_forall_not_mem]
    intro b hb
    obtain ⟨c, hc, hBind⟩ := hBinds.exists_bind b hb
    have hInactive := Linkage.isInactive_of_bind h hNone hBind
    have hKept := (List.mem_filter.mp hc).2
    simp [hInactive] at hKept
  refine ⟨hEquations, List.length_eq_zero_iff.mp ?_⟩
  rw [List.Forall₂.length_eq hBinds, hEquations]
  rfl

/-- **A solve without variables leaves out every equation and reports that there was none.** -/
theorem report_of_no_variables {r : Solved α} (h : run k config s active = .ok r)
    (hNone : r.report.degreesOfFreedom = 0) :
    ∃ l, Linkage.build s.geometry s.constraints.items active = .ok l ∧
      (∀ c ∈ s.constraints.items, c.kind.hasResidual = true →
        l.isInactive s.geometry c = true) ∧
      r.report = ⟨config.backend, 0, 0, 0, decide (0 ≤ config.constraintTolerance), 0⟩ ∧
      r.sketch.constraints.counters.inactive =
        s.constraints.items.countP (·.kind.hasResidual) := by
  obtain ⟨l, equations, inactive, hBuild, hBind, rfl⟩ := (run_eq_ok_iff r).mp h
  obtain ⟨hBinds, rfl⟩ := binds_of_bindAll _ hBind
  have hSize : (l.gather s.geometry).size = l.degreesOfFreedom :=
    Linkage.size_gather_of_build hBuild (.refl s.geometry)
  have hEmpty : (l.gather s.geometry).size = 0 := by
    rw [outcome] at hNone
    split at hNone
    · next hEmpty => exact hEmpty
    · exact hNone
  obtain ⟨rfl, hNothing⟩ := adjustable_of_no_variables hBuild (hSize.symm.trans hEmpty) hBinds
  have hInactive : ∀ c ∈ s.constraints.items, c.kind.hasResidual = true →
      l.isInactive s.geometry c = true := by
    intro c hc hKind
    by_contra hActive
    have hKept : c ∈ adjustable s.geometry l s.constraints.items :=
      List.mem_filter.mpr ⟨hc, by simp [hKind, hActive]⟩
    rw [hNothing] at hKept
    exact absurd hKept List.not_mem_nil
  refine ⟨l, hBuild, hInactive, ?_, ?_⟩
  · rw [outcome, if_pos hEmpty]
    rfl
  · obtain ⟨vars, hSketch⟩ := exists_sketch_outcome k config s active l []
      (s.constraints.items.countP (l.isInactive s.geometry))
    rw [hSketch]
    exact List.countP_congr fun c hc => ⟨hasResidual_of_isInactive, hInactive c hc⟩

end Solve

namespace Session

variable {α ω : Type} [Scalar α] {k : Kernel α} {t : Session α ω} {active : Option PointRef}

/-- **A completed solve without variables has left out every equation**: it reports no residuals,
no iterations and a largest residual of zero, has converged unless the tolerance is negative, and
counts all equations as inactive. -/
theorem solve_of_no_variables (hCompleted : (t.solve k active).2 = true)
    (hNone : (t.solve k active).1.degreesOfFreedom = 0) :
    ∃ r l, Solve.run k t.config t.sketch active = .ok r ∧
      Linkage.build t.sketch.geometry t.sketch.constraints.items active = .ok l ∧
      (∀ c ∈ t.sketch.constraints.items, c.kind.hasResidual = true →
        l.isInactive t.sketch.geometry c = true) ∧
      (t.solve k active).1.report =
        some ⟨t.config.backend, 0, 0, 0, decide (0 ≤ t.config.constraintTolerance), 0⟩ ∧
      r.sketch.constraints.counters.inactive =
        t.sketch.constraints.items.countP (·.kind.hasResidual) ∧
      (t.callback = none → (t.solve k active).1.sketch = r.sketch) := by
  obtain ⟨hSolving, hBorrowed, r, hRun⟩ := solveNotifying_completes_iff.mp hCompleted
  have hSettled : t.solve k active = (settle (notify k) t r, true) :=
    solveNotifying_of_run hSolving hBorrowed hRun
  obtain ⟨hReport, hFreedom⟩ := report_settle k t r
  rw [hSettled, hFreedom] at hNone
  obtain ⟨l, hBuild, hInactive, hEmpty, hCount⟩ := Solve.report_of_no_variables hRun hNone
  refine ⟨r, l, hRun, hBuild, hInactive, ?_, hCount, fun hCallback => ?_⟩
  · rw [hSettled, hReport, hEmpty]
  · exact sketch_solve_of_run hSolving hBorrowed hCallback hRun

/-- The same two segments with every point held, under two more equations that do not hold. -/
def immovable : Session Float Unit :=
  { (Session.new .default) with
    sketch :=
      { Linkage.anchored with
        constraints := ⟨Linkage.anchored.constraints.items ++
          [⟨⟨4⟩, .perpendicularity, [.segment ⟨1⟩, .segment ⟨0⟩]⟩,
            ⟨⟨5⟩, .fixed, [.point (.stop ⟨1⟩)]⟩,
            ⟨⟨6⟩, .parallelism, [.segment ⟨0⟩, .segment ⟨1⟩]⟩], .zero⟩ } }

theorem solve_of_no_variables_immovable :
    (immovable.solve Kernel.float none).2 = true ∧
      (immovable.solve Kernel.float none).1.degreesOfFreedom = 0 ∧
      (immovable.solve Kernel.float none).1.report =
        some ⟨.sqp, 0, 0, 0, decide ((0 : Float) ≤ immovable.config.constraintTolerance), 0⟩ ∧
      (immovable.solve Kernel.float none).1.sketch.constraints.counters.inactive = 3 := by
  have hCompleted : (immovable.solve Kernel.float none).2 = true := rfl
  have hNone : (immovable.solve Kernel.float none).1.degreesOfFreedom = 0 := rfl
  obtain ⟨r, l, -, -, -, hReport, hCount, hSketch⟩ := solve_of_no_variables hCompleted hNone
  refine ⟨hCompleted, hNone, hReport, ?_⟩
  rw [hSketch rfl, hCount]
  rfl

end Session

end PlaneSketch
