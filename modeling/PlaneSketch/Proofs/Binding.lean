import PlaneSketch.Proofs.Equations
import PlaneSketch.Proofs.Splitting

/-!
# What a binding finds

The catalog speaks of operands by type, a binding resolves them to indices, and an equation is
evaluated by index.  Here an equation is read by the names of its operands.

* `Geometry.figure?`: what an operand names, `Residual.Bound.figure?`: what it was resolved to; they
  are the same (`Residual.Resolves.figure?_eq`).
* `Residual.gap?`: the equation of a kind between two figures, in either order.
* `Residual.value?_of_bind`: **a bound equation is the one of its kind between the figures that its
  operands name**, on every geometry over the same names.
* `Residual.exists_bind_eq_some_iff`: **a binding finds an equation exactly when the catalog accepts
  the operands and they exist.**
* `Residual.bind_agrees_with_catalog`: both, and that what a request stores can be bound.
-/

namespace PlaneSketch

variable {α : Type}

/-! ## Figures by name -/

/-- What an equation is about: a segment, an arc or a literal. -/
inductive Figure (α : Type) where
  | segment (s : Segment α)
  | arc (a : Arc α)
  | value (v : α)

/-- What an operand names, if it is no point. -/
def Geometry.figure? (g : Geometry α) : Operand α → Option (Figure α)
  | .segment id => (g.segment? id).map .segment
  | .arc id => (g.arc? id).map .arc
  | .value v => some (.value v)
  | .point _ => none

namespace Residual

variable {g g' : Geometry α} {kind : ConstraintKind} {o o' : Operand α}
  {operands : List (Operand α)}

/-- What a resolved operand stands for. -/
def Bound.figure? (g : Geometry α) : Bound α → Option (Figure α)
  | segment i => g.segments[i]?.map fun s => .segment s.figure
  | arc i => g.arcs[i]?.map fun a => .arc a.figure
  | value v => some (.value v)

theorem Bound.InRange.exists_figure? {b : Bound α} (h : b.InRange g) :
    ∃ f, b.figure? g = some f := by
  cases b with
  | segment i => exact ⟨_, congrArg (Option.map _) (List.getElem?_eq_getElem h)⟩
  | arc i => exact ⟨_, congrArg (Option.map _) (List.getElem?_eq_getElem h)⟩
  | value v => exact ⟨_, rfl⟩

/-- An operand that is resolved exists. -/
theorem Resolves.has {b : Bound α} (h : Resolves g o b) : g.Has o := by
  cases h with
  | segment hIndex => exact .segment ((g.isSome_segmentIndex? _).mp (by rw [hIndex]; rfl))
  | arc hIndex => exact .arc ((g.isSome_arcIndex? _).mp (by rw [hIndex]; rfl))
  | value v => exact .value v

theorem Resolves.type_eq {b : Bound α} (h : Resolves g o b) : b.type = o.type := by
  cases h <;> rfl

/-- **The index that an operand is resolved to is that of the figure it names.** -/
theorem Resolves.figure?_eq {b : Bound α} (h : Resolves g o b) : b.figure? g = g.figure? o := by
  cases h with
  | segment hIndex =>
    rw [Geometry.segmentIndex?] at hIndex
    rw [Geometry.figure?, Geometry.segment?, List.find?_eq_bind_findIdx?_getElem?, hIndex,
      Option.bind_some, Option.map_map]
    rfl
  | arc hIndex =>
    rw [Geometry.arcIndex?] at hIndex
    rw [Geometry.figure?, Geometry.arc?, List.find?_eq_bind_findIdx?_getElem?, hIndex,
      Option.bind_some, Option.map_map]
    rfl
  | value v => rfl

/-! ## The equation between two figures -/

section Gap

variable [Scalar α]

/-- How far two figures are from the relation of a kind; none when the kind has no equation between
them. -/
def gap? : ConstraintKind → Figure α → Figure α → Option α
  | .parallelism, .segment s, .segment t => some (s.vector.cross t.vector)
  | .perpendicularity, .segment s, .segment t => some (s.vector.dot t.vector)
  | .equalLengthOrRadius, .segment s, .segment t => some (s.length - t.length)
  | .equalLengthOrRadius, .arc a, .arc b => some (a.radius - b.radius)
  | .length, .segment s, .value v => some (s.length - v)
  | .length, .value v, .segment s => some (s.length - v)
  | .length, .arc a, .value v => some (a.radius - v)
  | .length, .value v, .arc a => some (a.radius - v)
  | .tangency, .arc a, .segment s => some (tangentGap a s)
  | .tangency, .segment s, .arc a => some (tangentGap a s)
  | .tangency, .arc a, .arc b => some (distance a.center b.center - (a.radius + b.radius))
  | .concentricity, .arc a, .arc b => some (distance a.center b.center)
  | _, _, _ => none

/-- The equation of two resolved operands is the one between their figures. -/
theorem value?_of_ofBounds? {a b : Bound α} {r : Residual α} (h : ofBounds? kind a b = some r)
    {f f' : Figure α} (ha : a.figure? g = some f) (hb : b.figure? g = some f') :
    r.value? g = gap? kind f f' := by
  revert h
  cases kind <;> cases a <;> cases b <;>
    simp only [ofBounds?, reduceCtorEq, false_implies, Option.some.injEq]
  all_goals
    rintro rfl
    -- each index stands for one figure, and that is what either side reads
    simp only [Bound.figure?, Option.map_eq_some_iff, Option.some.injEq] at ha hb
    grind [value?, gap?]

/-- **A bound equation is the one of its kind between the figures that its operands name**, on every
geometry over the same names. -/
theorem value?_of_bind {r : Residual α} (h : bind g kind operands = .ok (some r))
    (hIds : g.SameIds g') : ∃ o o' f f' v, operands = [o, o'] ∧ g'.figure? o = some f ∧
      g'.figure? o' = some f' ∧ gap? kind f f' = some v ∧ r.value? g' = some v := by
  rw [bind_congr hIds] at h
  obtain ⟨v, hv⟩ := Option.isSome_iff_exists.mp (isSome_value?_of_bind h (.refl g'))
  rcases bind_eq_ok_cases h with ⟨-, hNone⟩ | ⟨-, o, o', a, b, r', rfl, ha, hb, hr, hSome⟩
  · exact absurd hNone (by simp)
  · obtain rfl := Option.some.inj hSome
    obtain ⟨f, hf⟩ := (inRange_of_bindOperand ha).exists_figure?
    obtain ⟨f', hf'⟩ := (inRange_of_bindOperand hb).exists_figure?
    refine ⟨o, o', f, f', v, rfl, ?_, ?_, ?_, hv⟩
    · rw [← (resolves_of_bindOperand ha).figure?_eq, hf]
    · rw [← (resolves_of_bindOperand hb).figure?_eq, hf']
    · rw [← value?_of_ofBounds? hr hf hf', hv]

end Gap

/-! ## When there is an equation -/

/-- **A binding finds an equation exactly when the catalog accepts the operands and they exist.** -/
theorem exists_bind_eq_some_iff (g : Geometry α) (kind : ConstraintKind)
    (operands : List (Operand α)) : (∃ r, bind g kind operands = .ok (some r)) ↔
      kind.hasResidual = true ∧ ∃ o o', operands = [o, o'] ∧
        kind.accepts [o.type, o'.type] = true ∧ g.contains o = true ∧ g.contains o' = true := by
  simp only [g.contains_iff]
  constructor
  · rintro ⟨r, h⟩
    rcases bind_eq_ok_cases h with ⟨-, hNone⟩ | ⟨hResidual, o, o', a, b, r', hPair, ha, hb, hr, -⟩
    · exact absurd hNone (by simp)
    · have hFirst := resolves_of_bindOperand ha
      have hSecond := resolves_of_bindOperand hb
      have hTable := isSome_ofBounds? kind a b
      rw [hr, hResidual, hFirst.type_eq, hSecond.type_eq, Option.isSome_some, Bool.true_and]
        at hTable
      exact ⟨hResidual, o, o', hPair, hTable.symm, hFirst.has, hSecond.has⟩
  · rintro ⟨hResidual, o, o', rfl, hAccepts, hHas, hHas'⟩
    exact exists_bind_pair hResidual hAccepts hHas hHas'

theorem bind_eq_none_iff (g : Geometry α) (kind : ConstraintKind) (operands : List (Operand α)) :
    bind g kind operands = .ok none ↔ kind.hasResidual = false := by
  constructor
  · exact fun h => (isSome_of_bind h).symm
  · intro h
    simp [bind, h]

end Residual

/-! ## What a request stores -/

/-- **What a store makes of a request over operands that exist can be bound**, and to an equation if
the kind has one. -/
theorem Constraints.exists_bind_of_add {g : Geometry α} {kind : ConstraintKind}
    {operands : List (Operand α)} (hHas : ∀ o ∈ operands, g.Has o) {cs cs' : Constraints α}
    {fresh : ConstraintId} {ids : List ConstraintId}
    (h : cs.add fresh kind operands = .ok (cs', ids)) :
    ∃ made, cs'.items = cs.items ++ made ∧ ids = made.map (·.id) ∧ ∀ c ∈ made, ∃ bound,
      Residual.bind g c.kind c.operands = .ok bound ∧ bound.isSome = c.kind.hasResidual := by
  obtain ⟨made, rfl, hIds, -, hMade⟩ := add_eq_ok h
  refine ⟨made, rfl, hIds, fun c hc => ?_⟩
  obtain ⟨hWellFormed, hOperands⟩ := hMade c hc
  obtain ⟨bound, hBound⟩ := hWellFormed.exists_bind fun o ho => hHas o (hOperands o ho)
  exact ⟨bound, hBound, Residual.isSome_of_bind hBound⟩

/-- **A binding agrees with the catalog.**  It finds an equation exactly for two operands that the
catalog accepts and that exist; the equation is the one between the figures that they name, also
where these have moved; and what a request stores can be bound. -/
theorem Residual.bind_agrees_with_catalog [Scalar α] (g : Geometry α) (kind : ConstraintKind)
    (operands : List (Operand α)) :
    ((∃ r, bind g kind operands = .ok (some r)) ↔
      kind.hasResidual = true ∧ ∃ o o', operands = [o, o'] ∧
        kind.accepts [o.type, o'.type] = true ∧ g.contains o = true ∧ g.contains o' = true) ∧
    (bind g kind operands = .ok none ↔ kind.hasResidual = false) ∧
    (∀ r, bind g kind operands = .ok (some r) → ∀ g', g.SameIds g' →
      ∃ o o' f f' v, operands = [o, o'] ∧ g'.figure? o = some f ∧ g'.figure? o' = some f' ∧
        gap? kind f f' = some v ∧ r.value? g' = some v) ∧
    (∀ (cs cs' : Constraints α) fresh ids, (∀ o ∈ operands, g.contains o = true) →
      cs.add fresh kind operands = .ok (cs', ids) →
        ∃ made, cs'.items = cs.items ++ made ∧ ids = made.map (·.id) ∧ ∀ c ∈ made, ∃ bound,
          bind g c.kind c.operands = .ok bound ∧ bound.isSome = c.kind.hasResidual) ∧
    ∀ (s s' : Sketch α) fresh ids, s.addConstraint fresh kind operands = .ok (s', ids) →
      ∃ made, s'.constraints.items = s.constraints.items ++ made ∧ ids = made.map (·.id) ∧
        ∀ c ∈ made, ∃ bound, bind s'.geometry c.kind c.operands = .ok bound ∧
          bound.isSome = c.kind.hasResidual := by
  refine ⟨exists_bind_eq_some_iff g kind operands, bind_eq_none_iff g kind operands,
    fun r h g' hIds => value?_of_bind h hIds, fun cs cs' fresh ids hContains hAdd => ?_,
    fun s s' fresh ids hAdd => ?_⟩
  · exact Constraints.exists_bind_of_add (fun o ho => (g.contains_iff o).mp (hContains o ho)) hAdd
  · obtain ⟨hHas, cs, hStored, rfl⟩ := Sketch.addConstraint_eq_ok_iff.mp hAdd
    exact Constraints.exists_bind_of_add hHas hStored

/-- Two segments and an arc; the second segment has the smaller name. -/
def wheel : Sketch Float :=
  ⟨⟨[⟨⟨8⟩, ⟨0, 0⟩, ⟨9, 0⟩⟩, ⟨⟨4⟩, ⟨0, 5⟩, ⟨9, 5⟩⟩], [⟨⟨6⟩, ⟨2, 3⟩, ⟨6, 3⟩, 0⟩]⟩, .empty⟩

/-- The arc is to touch the second segment, which is given first, and is measured after all points
were mirrored on the diagonal. -/
theorem Residual.bind_agrees_with_catalog_wheel :
    bind wheel.geometry .tangency [.segment ⟨4⟩, .arc ⟨6⟩] =
        .ok (some (.arcSegmentTangent 0 1)) ∧
      (arcSegmentTangent 0 1).value? (wheel.geometry.mapPoints fun _ v => ⟨v.y, v.x⟩) =
        some (tangentGap ⟨⟨3, 2⟩, ⟨3, 6⟩, 0⟩ (⟨⟨5, 0⟩, ⟨5, 9⟩⟩ : Segment Float)) ∧
      ∃ s' ids, wheel.addConstraint ⟨0⟩ .tangency [.segment ⟨4⟩, .arc ⟨6⟩] = .ok (s', ids) ∧
        ∃ made, s'.constraints.items = wheel.constraints.items ++ made ∧ ids = made.map (·.id) ∧
          ∀ c ∈ made, ∃ bound, bind s'.geometry c.kind c.operands = .ok bound ∧
            bound.isSome = c.kind.hasResidual := by
  obtain ⟨-, -, hValue, -, hStored⟩ :=
    bind_agrees_with_catalog wheel.geometry .tangency [.segment ⟨4⟩, .arc ⟨6⟩]
  obtain ⟨o, o', f, f', v, hPair, hf, hf', hGap, hv⟩ := hValue (.arcSegmentTangent 0 1) rfl _
    (Geometry.sameIds_mapPoints (fun _ v => ⟨v.y, v.x⟩) wheel.geometry).symm
  obtain ⟨rfl, hRest⟩ := List.cons.inj hPair
  obtain ⟨rfl, -⟩ := List.cons.inj hRest
  obtain rfl := Option.some.inj hf
  obtain rfl := Option.some.inj hf'
  refine ⟨rfl, hv.trans hGap.symm, ?_⟩
  obtain ⟨⟨s', ids⟩, hAdd⟩ : ∃ result, wheel.addConstraint ⟨0⟩ .tangency
      [.segment ⟨4⟩, .arc ⟨6⟩] = .ok result := ⟨_, rfl⟩
  exact ⟨s', ids, hAdd, hStored wheel s' ⟨0⟩ ids hAdd⟩

end PlaneSketch
