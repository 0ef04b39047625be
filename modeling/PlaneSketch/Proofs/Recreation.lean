import PlaneSketch.Proofs.Removal

/-!
# What a recreation stores

A recreation asks the same question as a request, whether the kind accepts the operands, but it does
not split them.  A kind with an equation that accepts a longer run is so left with a constraint for
which there is no equation.

* `Constraint.mismatched_iff`: **an accepted constraint has no equation exactly when its kind asks
  for one and it has not two operands.**
* `Constraints.recreate_eq_ok_iff`: which constraint is replaced, and by what.
* `Constraints.not_mismatched_of_add`: what a request stores is never mismatched.
* `Constraints.recreate_mismatched_iff`: when a recreation leaves nothing mismatched.
-/

namespace PlaneSketch

variable {α : Type} {g : Geometry α}

/-! ## Constraints without an equation -/

namespace Residual

/-- The only thing that can be wrong with an operand that is no point is that it does not exist. -/
theorem bindOperand_cases (g : Geometry α) {o : Operand α} (hType : o.type ≠ .point) :
    (∃ b, bindOperand g o = .ok (some b) ∧ b.type = o.type) ∨
      ∃ id, bindOperand g o = .error (.unknownEntity id) := by
  by_cases hHas : g.Has o
  · exact Or.inl (exists_bindOperand hHas hType)
  · right
    rw [← g.contains_iff] at hHas
    cases o with
    | point p => exact absurd rfl hType
    | segment id =>
      rw [Geometry.contains, Option.not_isSome_iff_eq_none] at hHas
      exact ⟨id, by rw [bindOperand, hHas]⟩
    | arc id =>
      rw [Geometry.contains, Option.not_isSome_iff_eq_none] at hHas
      exact ⟨id, by rw [bindOperand, hHas]⟩
    | value v => exact absurd rfl hHas

/-- Two operands that a kind with an equation accepts are bound, unless one of them does not
exist. -/
theorem bind_pair_cases (g : Geometry α) {kind : ConstraintKind}
    (hResidual : kind.hasResidual = true) {o o' : Operand α}
    (hAccepts : kind.accepts [o.type, o'.type] = true) :
    (∃ r, bind g kind [o, o'] = .ok (some r)) ∨
      ∃ id, bind g kind [o, o'] = .error (.unknownEntity id) := by
  obtain ⟨hType, hType'⟩ := ne_point_of_accepts hResidual hAccepts
  rcases bindOperand_cases g hType with ⟨a, hBound, ha⟩ | ⟨id, hBound⟩
  · rcases bindOperand_cases g hType' with ⟨b, hBound', hb⟩ | ⟨id, hBound'⟩
    · exact Or.inl (exists_bind_of_bounds hResidual hAccepts hBound ha hBound' hb)
    · exact Or.inr ⟨id, by simp [bind, hResidual, hBound, hBound', Bind.bind, Except.bind]⟩
  · exact Or.inr ⟨id, by simp [bind, hResidual, hBound, Bind.bind, Except.bind]⟩

end Residual

namespace Constraint

/-- The operands are not of the shape that an equation of the kind wants, whatever exists. -/
def Mismatched (g : Geometry α) (c : Constraint α) : Prop :=
  ∃ kind types, Residual.bind g c.kind c.operands = .error (.requirementMismatch kind types)

/-- **An accepted constraint is mismatched exactly when its kind has an equation and it has not two
operands.** -/
theorem mismatched_iff {c : Constraint α} (hAccepts : c.kind.accepts c.types = true) :
    c.Mismatched g ↔ c.kind.hasResidual = true ∧ c.operands.length ≠ 2 := by
  obtain ⟨id, kind, operands⟩ := c
  simp only [Mismatched, types] at hAccepts ⊢
  cases hResidual : kind.hasResidual with
  | false => simp [Residual.bind, hResidual]
  | true =>
    obtain _ | ⟨first, _ | ⟨second, _ | ⟨third, rest⟩⟩⟩ := operands
    · simp [Residual.bind, hResidual]
    · simp [Residual.bind, hResidual]
    · rcases Residual.bind_pair_cases g hResidual hAccepts with ⟨r, hBind⟩ | ⟨id, hBind⟩
      · simp [hBind]
      · simp [hBind]
    · simp [Residual.bind, hResidual]

theorem WellFormed.not_mismatched {c : Constraint α} (h : c.WellFormed) : ¬ c.Mismatched g := by
  rw [mismatched_iff h.accepted]
  rintro ⟨hResidual, hLength⟩
  exact hLength (h.pair hResidual)

end Constraint

/-! ## Recreation -/

namespace Constraints

variable {cs cs' : Constraints α} {id fresh : ConstraintId} {operands : List (Operand α)}

/-- The first constraint of a name is replaced where it stands, if its kind accepts the operands. -/
theorem recreate_eq_ok_iff : cs.recreate id fresh operands = .ok cs' ↔
    ∃ before c after, cs.items = before ++ c :: after ∧ c.id = id ∧ (∀ d ∈ before, d.id ≠ id) ∧
      c.kind.accepts (operands.map Operand.type) = true ∧
      cs' = ⟨before ++ ⟨fresh, c.kind, operands⟩ :: after, cs.counters⟩ := by
  constructor
  · intro h
    rw [recreate] at h
    cases hGet : cs.get? id with
    | none => simp [hGet] at h
    | some c =>
      obtain ⟨hName, before, after, hItems, hBefore⟩ := List.find?_eq_some_iff_append.mp hGet
      simp only [decide_eq_true_eq] at hName
      have hApart : ∀ d ∈ before, d.id ≠ id := fun d hd => by simpa using hBefore d hd
      rw [hGet] at h
      by_cases hAccepts : c.kind.accepts (operands.map Operand.type) = true
      · simp only [if_pos hAccepts, Except.ok.injEq] at h
        rw [hItems, replaceFirst_append (fun d hd => by simpa using hApart d hd) (by simpa)] at h
        exact ⟨before, c, after, hItems, hName, hApart, hAccepts, h.symm⟩
      · simp [if_neg hAccepts] at h
  · rintro ⟨before, c, after, hItems, rfl, hBefore, hAccepts, rfl⟩
    obtain ⟨items, counters⟩ := cs
    obtain rfl := hItems
    exact recreate_append hBefore hAccepts after

/-- **What a request stores is never mismatched.** -/
theorem not_mismatched_of_add {kind : ConstraintKind} {ids : List ConstraintId}
    (h : cs.add fresh kind operands = .ok (cs', ids))
    (hBefore : ∀ c ∈ cs.items, ¬ c.Mismatched g) : ∀ c ∈ cs'.items, ¬ c.Mismatched g := by
  obtain ⟨made, rfl, -, -, hMade⟩ := add_eq_ok h
  intro c hc
  rcases List.mem_append.mp hc with hOld | hNew
  · exact hBefore c hOld
  · exact (hMade c hNew).1.not_mismatched

/-- **What a recreation stores may be mismatched**: nothing is exactly when the kind has no equation
or there are two operands, as an equation wants.  All else that is stored stays as it was. -/
theorem recreate_mismatched_iff (hBefore : ∀ c ∈ cs.items, ¬ c.Mismatched g)
    (h : cs.recreate id fresh operands = .ok cs') :
    ∃ before c after, cs.items = before ++ c :: after ∧ c.id = id ∧ (∀ d ∈ before, d.id ≠ id) ∧
      cs' = ⟨before ++ ⟨fresh, c.kind, operands⟩ :: after, cs.counters⟩ ∧
      ((∀ d ∈ cs'.items, ¬ d.Mismatched g) ↔
        (c.kind.hasResidual = true → operands.length = 2)) := by
  obtain ⟨before, c, after, hItems, hName, hApart, hAccepts, rfl⟩ := recreate_eq_ok_iff.mp h
  refine ⟨before, c, after, hItems, hName, hApart, rfl, ?_⟩
  rw [hItems, List.forall_mem_append, List.forall_mem_cons] at hBefore
  obtain ⟨hFirst, -, hLast⟩ := hBefore
  have hNew := Constraint.mismatched_iff (g := g) (c := ⟨fresh, c.kind, operands⟩) hAccepts
  rw [List.forall_mem_append, List.forall_mem_cons, hNew, and_iff_right hFirst,
    and_iff_left hLast]
  simp

/-- Three segments side by side, of which two are declared to be parallel. -/
def beside : Sketch Int :=
  ⟨⟨[⟨⟨0⟩, ⟨0, 0⟩, ⟨9, 0⟩⟩, ⟨⟨1⟩, ⟨0, 1⟩, ⟨9, 1⟩⟩, ⟨⟨2⟩, ⟨0, 2⟩, ⟨9, 2⟩⟩], []⟩,
    ⟨[⟨⟨0⟩, .parallelism, [.segment ⟨0⟩, .segment ⟨1⟩]⟩], .zero⟩⟩

theorem not_mismatched_beside :
    ∀ c ∈ beside.constraints.items, ¬ c.Mismatched beside.geometry := by
  intro c hc
  obtain rfl := List.mem_singleton.mp hc
  rw [Constraint.mismatched_iff (by decide)]
  decide

/-- Two other operands are good for a parallelism. -/
theorem recreate_mismatched_iff_beside :
    ∃ cs', beside.constraints.recreate ⟨0⟩ ⟨1⟩ [.segment ⟨1⟩, .segment ⟨2⟩] = .ok cs' ∧
      ∀ d ∈ cs'.items, ¬ d.Mismatched beside.geometry := by
  obtain ⟨cs', hRecreate⟩ : ∃ cs', beside.constraints.recreate ⟨0⟩ ⟨1⟩
      [.segment ⟨1⟩, .segment ⟨2⟩] = .ok cs' := ⟨_, rfl⟩
  obtain ⟨before, c, after, -, -, -, -, hIff⟩ :=
    recreate_mismatched_iff not_mismatched_beside hRecreate
  exact ⟨cs', hRecreate, hIff.mpr fun _ => rfl⟩

/-- Three operands are accepted too, and then there is no equation for them. -/
theorem recreate_leaves_mismatched :
    (∀ c ∈ beside.constraints.items, ¬ c.Mismatched beside.geometry) ∧
      ∃ cs', beside.constraints.recreate ⟨0⟩ ⟨1⟩ [.segment ⟨0⟩, .segment ⟨1⟩, .segment ⟨2⟩] =
          .ok cs' ∧
        ∃ d ∈ cs'.items, d.Mismatched beside.geometry :=
  ⟨not_mismatched_beside, _, rfl, _, List.mem_singleton_self _, _, _, rfl⟩

end Constraints

end PlaneSketch
