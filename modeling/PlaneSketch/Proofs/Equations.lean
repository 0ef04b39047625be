import PlaneSketch.Proofs.Catalog
import PlaneSketch.Proofs.Linkage.Variables
import PlaneSketch.Solver.Solve

/-!
# The equations of a solve

* `Residual.bind_eq_ok_cases`, `Residual.resolves_of_bindOperand`: what a binding that succeeds has
  found, of the equation and of its operands.
* `Residual.isSome_value?_of_bind`: **the indices of a bound equation are in range**, on every
  geometry over the same names.
* `Solve.binds_of_bindAll`: the equations of a solve are those of the constraints that have
  something left to adjust.
* `Solve.length_eq_add`: **every constraint is counted once**.
-/

namespace PlaneSketch

/-! ## One equation -/

namespace Residual

variable {α : Type} {g g' : Geometry α} {kind : ConstraintKind} {operands : List (Operand α)}

/-- What a binding that succeeds has found: no equation for a kind that has none, and otherwise the
one of two resolved operands. -/
theorem bind_eq_ok_cases {bound : Option (Residual α)} (h : bind g kind operands = .ok bound) :
    kind.hasResidual = false ∧ bound = none ∨
      kind.hasResidual = true ∧ ∃ first second a b r, operands = [first, second] ∧
        bindOperand g first = .ok (some a) ∧ bindOperand g second = .ok (some b) ∧
        ofBounds? kind a b = some r ∧ bound = some r := by
  cases hKind : kind.hasResidual with
  | false =>
    simp only [bind, hKind, Bool.not_false, if_true] at h
    exact Or.inl ⟨rfl, (Except.ok.inj h).symm⟩
  | true =>
    refine Or.inr ⟨rfl, ?_⟩
    obtain _ | ⟨first, _ | ⟨second, _ | ⟨third, rest⟩⟩⟩ := operands
    · simp [bind, hKind] at h
    · simp [bind, hKind] at h
    · simp only [bind, hKind, Bool.not_true, Bool.false_eq_true, if_false] at h
      obtain ⟨a, ha, h⟩ := bind_eq_ok_iff.mp h
      cases a with
      | none => exact absurd h (by simp)
      | some a =>
        obtain ⟨b, hb, h⟩ := bind_eq_ok_iff.mp h
        cases b with
        | none => exact absurd h (by simp)
        | some b =>
          cases hr : ofBounds? kind a b with
          | none => simp [hr] at h
          | some r =>
            simp only [hr, Except.ok.injEq] at h
            exact ⟨first, second, a, b, r, rfl, ha, hb, hr, h.symm⟩
    · simp [bind, hKind] at h

/-- A kind has an equation or not, whatever its operands are. -/
theorem isSome_of_bind {bound : Option (Residual α)} (h : bind g kind operands = .ok bound) :
    bound.isSome = kind.hasResidual := by
  rcases bind_eq_ok_cases h with ⟨hKind, rfl⟩ | ⟨hKind, _, _, _, _, _, -, -, -, -, rfl⟩
  · rw [hKind]
    rfl
  · rw [hKind]
    rfl

theorem bindOperand_congr (h : g.SameIds g') (o : Operand α) :
    bindOperand g o = bindOperand g' o := by
  cases o with
  | point p => rfl
  | segment id => rw [bindOperand, bindOperand, h.segmentIndex?]
  | arc id => rw [bindOperand, bindOperand, h.arcIndex?]
  | value v => rfl

/-- A binding hangs on the names of the entities only. -/
theorem bind_congr (h : g.SameIds g') (kind : ConstraintKind) (operands : List (Operand α)) :
    bind g kind operands = bind g' kind operands := by
  simp only [bind, bindOperand_congr h]

/-- How an operand is resolved: by the index of the entity with its name, or as it is. -/
inductive Resolves (g : Geometry α) : Operand α → Bound α → Prop
  | segment {id : EntityId} {i : Nat} :
      g.segmentIndex? id = some i → Resolves g (.segment id) (.segment i)
  | arc {id : EntityId} {i : Nat} : g.arcIndex? id = some i → Resolves g (.arc id) (.arc i)
  | value (v : α) : Resolves g (.value v) (.value v)

theorem resolves_of_bindOperand {o : Operand α} {b : Bound α}
    (h : bindOperand g o = .ok (some b)) : Resolves g o b := by
  cases o with
  | point p => exact absurd h (by simp [bindOperand])
  | segment id =>
    cases hIndex : g.segmentIndex? id with
    | none => exact absurd h (by simp [bindOperand, hIndex])
    | some i =>
      rw [bindOperand, hIndex] at h
      obtain rfl := Option.some.inj (Except.ok.inj h)
      exact .segment hIndex
  | arc id =>
    cases hIndex : g.arcIndex? id with
    | none => exact absurd h (by simp [bindOperand, hIndex])
    | some i =>
      rw [bindOperand, hIndex] at h
      obtain rfl := Option.some.inj (Except.ok.inj h)
      exact .arc hIndex
  | value v =>
    obtain rfl := Option.some.inj (Except.ok.inj h)
    exact .value v

/-- A resolved operand is an entity of the geometry. -/
def Bound.InRange (g : Geometry α) : Bound α → Prop
  | segment i => i < g.segments.length
  | arc i => i < g.arcs.length
  | value _ => True

theorem inRange_of_bindOperand {o : Operand α} {b : Bound α}
    (h : bindOperand g o = .ok (some b)) : b.InRange g := by
  cases resolves_of_bindOperand h with
  | segment hIndex => exact (List.findIdx?_eq_some_iff_getElem.mp hIndex).1
  | arc hIndex => exact (List.findIdx?_eq_some_iff_getElem.mp hIndex).1
  | value v => exact trivial

theorem Bound.InRange.of_sameIds {b : Bound α} (h : b.InRange g) (hIds : g.SameIds g') :
    b.InRange g' := by
  cases b with
  | segment i =>
    rw [InRange] at h ⊢
    rwa [← hIds.length_segments]
  | arc i =>
    rw [InRange] at h ⊢
    rwa [← hIds.length_arcs]
  | value v => exact trivial

section Value

variable [Scalar α]

/-- The equation of two entities of the geometry can be evaluated there. -/
theorem isSome_value?_of_ofBounds? {a b : Bound α} {r : Residual α}
    (h : ofBounds? kind a b = some r) (ha : a.InRange g) (hb : b.InRange g) :
    (r.value? g).isSome := by
  revert h
  cases kind <;> cases a <;> cases b <;>
    simp only [ofBounds?, reduceCtorEq, false_implies, Option.some.injEq]
  all_goals
    rintro rfl
    simp only [Bound.InRange] at ha hb
    simp [value?, ha, hb]

/-- **The indices of a bound equation are in range**, on every geometry over the same names. -/
theorem isSome_value?_of_bind {r : Residual α} (h : bind g kind operands = .ok (some r))
    (hIds : g.SameIds g') : (r.value? g').isSome := by
  rcases bind_eq_ok_cases h with ⟨-, hNone⟩ | ⟨-, first, second, a, b, r', -, ha, hb, hr, hSome⟩
  · exact absurd hNone (by simp)
  · obtain rfl := Option.some.inj hSome
    exact isSome_value?_of_ofBounds? hr ((inRange_of_bindOperand ha).of_sameIds hIds)
      ((inRange_of_bindOperand hb).of_sameIds hIds)

end Value

end Residual

/-! ## The equations of a sketch -/

namespace Solve

variable {α : Type} {g g' : Geometry α} {l l' : Linkage α}

/-- The constraints with an equation that has something left to adjust, in order. -/
def adjustable (g : Geometry α) (l : Linkage α) (constraints : List (Constraint α)) :
    List (Constraint α) :=
  constraints.filter fun c => c.kind.hasResidual && !l.isInactive g c

/-- The equations are those of the constraints that have something left to adjust, in order. -/
def Binds (g : Geometry α) (l : Linkage α) (constraints : List (Constraint α))
    (equations : List (Residual α)) : Prop :=
  List.Forall₂ (fun c b => Residual.bind g c.kind c.operands = .ok (some b))
    (adjustable g l constraints) equations

theorem hasResidual_of_isInactive {c : Constraint α} (h : l.isInactive g c = true) :
    c.kind.hasResidual = true := by
  rw [Linkage.isInactive, Bool.and_eq_true] at h
  exact h.1

/-- **What a solve binds are the equations that are left, and it counts the others.** -/
theorem binds_of_bindAll (constraints : List (Constraint α)) :
    ∀ {equations : List (Residual α)} {inactive : Nat},
      bindAll g l constraints = .ok (equations, inactive) →
        Binds g l constraints equations ∧ inactive = constraints.countP (l.isInactive g) := by
  induction constraints with
  | nil =>
    intro equations inactive h
    obtain ⟨rfl, rfl⟩ := Prod.mk.inj (Except.ok.inj h)
    exact ⟨.nil, rfl⟩
  | cons c rest ih =>
    intro equations inactive h
    rw [bindAll] at h
    by_cases hInactive : l.isInactive g c = true
    · rw [if_pos hInactive] at h
      obtain ⟨⟨equations', inactive'⟩, hRest, hEq⟩ := map_eq_ok_iff.mp h
      obtain ⟨rfl, rfl⟩ := Prod.mk.inj hEq
      obtain ⟨hBinds, hCount⟩ := ih hRest
      have hDropped : adjustable g l (c :: rest) = adjustable g l rest :=
        List.filter_cons_of_neg (by simp [hInactive])
      refine ⟨by rwa [Binds, hDropped], ?_⟩
      rw [List.countP_cons_of_pos hInactive, hCount]
    · rw [if_neg hInactive] at h
      obtain ⟨bound, hBound, h⟩ := bind_eq_ok_iff.mp h
      obtain ⟨⟨equations', inactive'⟩, hRest, hEq⟩ := bind_eq_ok_iff.mp h
      obtain ⟨rfl, rfl⟩ := Prod.mk.inj (Except.ok.inj hEq)
      obtain ⟨hBinds, hCount⟩ := ih hRest
      rw [List.countP_cons_of_neg hInactive]
      refine ⟨?_, hCount⟩
      have hSome := Residual.isSome_of_bind hBound
      cases bound with
      | none =>
        have hDropped : adjustable g l (c :: rest) = adjustable g l rest :=
          List.filter_cons_of_neg (by simp [← hSome])
        rw [Binds, hDropped]
        exact hBinds
      | some b =>
        have hKept : adjustable g l (c :: rest) = c :: adjustable g l rest :=
          List.filter_cons_of_pos (by simp [← hSome, hInactive])
        rw [Binds, hKept]
        exact .cons hBound hBinds

theorem Binds.exists_bind {constraints : List (Constraint α)} {equations : List (Residual α)}
    (h : Binds g l constraints equations) : ∀ b ∈ equations,
      ∃ c ∈ adjustable g l constraints, Residual.bind g c.kind c.operands = .ok (some b) := by
  intro b hb
  obtain ⟨i, hi, rfl⟩ := List.getElem_of_mem hb
  have hi' : i < (adjustable g l constraints).length := by rwa [List.Forall₂.length_eq h]
  exact ⟨_, List.getElem_mem hi', List.Forall₂.get h hi' hi⟩

/-- **Every constraint is counted once**: as inactive, as an equation, as solved by substitution or
as fixed. -/
theorem length_eq_add (g : Geometry α) (l : Linkage α) (constraints : List (Constraint α)) :
    constraints.countP (l.isInactive g) + (adjustable g l constraints).length +
      constraints.countP (·.kind.tiesCoordinates) + constraints.countP (·.kind == .fixed) =
      constraints.length := by
  induction constraints with
  | nil => rfl
  | cons c rest ih =>
    have hOnce : (if l.isInactive g c = true then 1 else 0) +
        (if (c.kind.hasResidual && !l.isInactive g c) = true then 1 else 0) +
        (if c.kind.tiesCoordinates = true then 1 else 0) +
        (if (c.kind == .fixed) = true then 1 else 0) = 1 := by
      by_cases hInactive : l.isInactive g c = true
      · have hResidual := hasResidual_of_isInactive hInactive
        rw [if_pos hInactive, hResidual, hInactive]
        revert hResidual
        cases c.kind <;> decide
      · have hAdjustable : l.isInactive g c = false := by simpa using hInactive
        rw [hAdjustable]
        cases c.kind <;> decide
    have hLength : (adjustable g l (c :: rest)).length = (adjustable g l rest).length +
        if (c.kind.hasResidual && !l.isInactive g c) = true then 1 else 0 := by
      rw [adjustable, List.filter_cons, ← adjustable]
      split <;> rfl
    rw [List.countP_cons, List.countP_cons, List.countP_cons, hLength, List.length_cons]
    omega

/-- The names of the entities and the links of the slots decide about what a solve binds. -/
theorem bindAll_congr (hIds : g.SameIds g') (hLinks : l.slots.links = l'.slots.links)
    (constraints : List (Constraint α)) : bindAll g l constraints = bindAll g' l' constraints := by
  induction constraints with
  | nil => rfl
  | cons c rest ih =>
    rw [bindAll, bindAll, ih, Linkage.isInactive_congr_links hLinks hIds, Residual.bind_congr hIds]

end Solve

end PlaneSketch
