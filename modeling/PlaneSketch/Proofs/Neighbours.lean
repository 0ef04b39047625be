import PlaneSketch.Proofs.Linkage.Classes
import PlaneSketch.Proofs.OperandOrder
import PlaneSketch.Proofs.Plane.Angle

/-!
# From neighbours to all

A request over many operands is stored as constraints between neighbours only.  Nothing of what it
asks for is lost where the relation of the kind passes on from neighbour to neighbour.

* `rel_of_consecutivePairs`: a relation between neighbours is one between any two elements, if it is
  an equivalence on the list.
* `Residual.gap?_trans`: the equations that pass on, and over which figures.
* `Transfers`, `Joins`: what that comes to for equations, and for coordinates that are tied.
* `Sketch.neighbours_suffice`: **the stored constraints say as much as the request over every two of
  its operands.**
-/

namespace PlaneSketch

/-- A relation that holds between neighbours holds between any two, if it is an equivalence as far
as the list goes. -/
theorem rel_of_consecutivePairs {β : Type} {R : β → β → Prop} {l : List β}
    (hRefl : ∀ x ∈ l, R x x) (hSymm : ∀ x ∈ l, ∀ y ∈ l, R x y → R y x)
    (hTrans : ∀ x ∈ l, ∀ y ∈ l, ∀ z ∈ l, R x y → R y z → R x z)
    (h : ∀ x y, [x, y] ∈ Constraints.consecutivePairs l → R x y) :
    ∀ x ∈ l, ∀ y ∈ l, R x y := by
  induction l with
  | nil =>
    intro x hx
    exact absurd hx List.not_mem_nil
  | cons a l ih =>
    cases l with
    | nil =>
      intro x hx y hy
      rw [List.mem_singleton.mp hx, List.mem_singleton.mp hy]
      exact hRefl a List.mem_cons_self
    | cons b l =>
      have hTail : ∀ x ∈ b :: l, x ∈ a :: b :: l := fun x => List.mem_cons_of_mem a
      have hRest : ∀ x ∈ b :: l, ∀ y ∈ b :: l, R x y :=
        ih (fun x hx => hRefl x (hTail x hx))
          (fun x hx y hy => hSymm x (hTail x hx) y (hTail y hy))
          (fun x hx y hy z hz => hTrans x (hTail x hx) y (hTail y hy) z (hTail z hz))
          (fun x y hPair => h x y (List.mem_cons_of_mem _ hPair))
      -- the head reaches the others over its own neighbour
      have hHead : ∀ y ∈ b :: l, R a y := fun y hy =>
        hTrans a List.mem_cons_self b (hTail b List.mem_cons_self) y (hTail y hy)
          (h a b List.mem_cons_self) (hRest b List.mem_cons_self y hy)
      intro x hx y hy
      rcases List.mem_cons.mp hx with rfl | hx'
      · rcases List.mem_cons.mp hy with rfl | hy'
        · exact hRefl _ hx
        · exact hHead y hy'
      · rcases List.mem_cons.mp hy with rfl | hy'
        · exact hSymm _ hy x hx (hHead x hx')
        · exact hRest x hx' y hy'

/-! ## Equations that pass on -/

theorem Vec2.cross_eq_zero_trans {u v w : Vec2 ℝ} (hv : v ≠ 0) (h : u.cross v = 0)
    (h' : v.cross w = 0) : u.cross w = 0 := by
  have hProduct := cross_mul_dot_add u v w
  rw [h, h', zero_mul, mul_zero, add_zero, eq_comm, mul_eq_zero] at hProduct
  exact hProduct.resolve_left fun hZero => hv (normSq_eq_zero_iff.mp hZero)

namespace Residual

/-- Kinds whose equation passes on from figure to figure over a third one. -/
inductive PassesOver : ConstraintKind → Figure ℝ → Prop
  | equalLengthOrRadius (f : Figure ℝ) : PassesOver .equalLengthOrRadius f
  | concentricity (f : Figure ℝ) : PassesOver .concentricity f
  /-- Everything is parallel to a collapsed segment. -/
  | parallelism {s : Segment ℝ} (h : s.length ≠ 0) : PassesOver .parallelism (.segment s)

variable {kind : ConstraintKind} {f f' f'' : Figure ℝ} {g g' : Geometry ℝ} {o o' o'' : Operand ℝ}
  {v : ℝ}

/-- A figure meets the equation of such a kind with itself. -/
theorem gap?_self (hPass : PassesOver kind f) (h : gap? kind f f = some v) : v = 0 := by
  cases hPass with
  | equalLengthOrRadius =>
    cases f with
    | segment s => exact (Option.some.inj h).symm.trans (sub_self _)
    | arc a => exact (Option.some.inj h).symm.trans (sub_self _)
    | value w => exact absurd h (by simp [gap?])
  | concentricity =>
    cases f with
    | segment s => exact absurd h (by simp [gap?])
    | arc a => exact (Option.some.inj h).symm.trans (distance_self _)
    | value w => exact absurd h (by simp [gap?])
  | @parallelism s _ =>
    refine (Option.some.inj h).symm.trans ?_
    rw [Vec2.cross_eq, mul_comm, sub_self]

/-- **The equation passes on.** -/
theorem gap?_trans (hPass : PassesOver kind f') (h : gap? kind f f' = some 0)
    (h' : gap? kind f' f'' = some 0) : gap? kind f f'' = some 0 := by
  cases hPass with
  | equalLengthOrRadius =>
    cases f <;> cases f' <;> cases f'' <;>
      simp only [gap?, reduceCtorEq, Option.some.injEq, sub_eq_zero] at h h' ⊢
    · exact h.trans h'
    · exact h.trans h'
  | concentricity =>
    cases f <;> cases f' <;> cases f'' <;>
      simp only [gap?, reduceCtorEq, Option.some.injEq, distance_eq_zero_iff] at h h' ⊢
    exact h.trans h'
  | @parallelism s hLength =>
    cases f <;> cases f'' <;> simp only [gap?, reduceCtorEq, Option.some.injEq] at h h' ⊢
    refine Vec2.cross_eq_zero_trans (fun hZero => hLength ?_) h h'
    rw [Segment.length, hZero, Vec2.norm_eq_zero_iff]

/-- The equation over some operands is found, and has the value `v`. -/
def HasValue (g : Geometry ℝ) (kind : ConstraintKind) (operands : List (Operand ℝ)) (v : ℝ) :
    Prop :=
  ∃ r, bind g kind operands = .ok (some r) ∧ r.value? g = some v

/-- The value of an equation that is found is the gap between the two figures. -/
theorem hasValue_iff (hBound : ∃ r, bind g kind [o, o'] = .ok (some r)) :
    HasValue g kind [o, o'] v ↔
      ∃ f f', g.figure? o = some f ∧ g.figure? o' = some f' ∧ gap? kind f f' = some v := by
  obtain ⟨r, hr⟩ := hBound
  obtain ⟨a, b, f, f', w, hPair, hf, hf', hGap, hValue⟩ := value?_of_bind hr (.refl g)
  obtain ⟨rfl, rfl⟩ : o = a ∧ o' = b := by simpa using hPair
  constructor
  · rintro ⟨r', hr', hv⟩
    obtain rfl : r = r' := by simpa using hr.symm.trans hr'
    obtain rfl := Option.some.inj (hValue.symm.trans hv)
    exact ⟨f, f', hf, hf', hGap⟩
  · rintro ⟨e, e', he, he', hv⟩
    obtain rfl := Option.some.inj (hf.symm.trans he)
    obtain rfl := Option.some.inj (hf'.symm.trans he')
    exact ⟨r, hr, hValue.trans (hGap.symm.trans hv)⟩

theorem hasValue_swap (hBound : ∃ r, bind g kind [o', o] = .ok (some r))
    (h : HasValue g kind [o, o'] 0) : HasValue g kind [o', o] 0 := by
  obtain ⟨r, hr, hZero⟩ := h
  obtain ⟨r', hr'⟩ := hBound
  obtain ⟨v, w, hv, hw, hSign⟩ := value?_of_bind_swap hr hr' (.refl g)
  obtain rfl := Option.some.inj (hv.symm.trans hZero)
  rw [neg_zero, or_self] at hSign
  exact ⟨r', hr', hSign ▸ hw⟩

end Residual

/-- Kinds of which the equation passes on along the operands, on the geometry `g`. -/
inductive Transfers (g : Geometry ℝ) (operands : List (Operand ℝ)) : ConstraintKind → Prop
  | equalLengthOrRadius : Transfers g operands .equalLengthOrRadius
  | concentricity : Transfers g operands .concentricity
  /-- No segment is collapsed. -/
  | parallelism (h : ∀ id s, .segment id ∈ operands → g.segment? id = some s → s.length ≠ 0) :
      Transfers g operands .parallelism

namespace Transfers

variable {g : Geometry ℝ} {kind : ConstraintKind} {operands : List (Operand ℝ)}
  {r : Requirement} {o o' o'' : Operand ℝ}

theorem isSplittable (h : Transfers g operands kind) : kind.isSplittable = true := by
  cases h <;> rfl

theorem hasResidual (h : Transfers g operands kind) : kind.hasResidual = true := by
  cases h <;> rfl

/-- All patterns of the kind are two operands of one type. -/
theorem exists_pattern (h : Transfers g operands kind) (hr : r ∈ kind.requirements) :
    ∃ t, r = .exactly [t, t] := by
  cases h <;> simp only [ConstraintKind.requirements, List.mem_cons, List.not_mem_nil, or_false]
    at hr
  · rcases hr with rfl | rfl
    · exact ⟨_, rfl⟩
    · exact ⟨_, rfl⟩
  · exact ⟨_, hr⟩
  · exact ⟨_, hr⟩

theorem passesOver (h : Transfers g operands kind) (ho : o ∈ operands) {f f' : Figure ℝ}
    (hf : g.figure? o = some f) {v : ℝ} (hGap : Residual.gap? kind f f' = some v) :
    Residual.PassesOver kind f := by
  cases h with
  | equalLengthOrRadius => exact .equalLengthOrRadius f
  | concentricity => exact .concentricity f
  | parallelism hLengths =>
    cases f with
    | arc a => exact absurd hGap (by simp [Residual.gap?])
    | value w => exact absurd hGap (by simp [Residual.gap?])
    | segment s =>
      cases o with
      | point p => exact absurd hf (by simp [Geometry.figure?])
      | arc id => exact absurd hf (by simp [Geometry.figure?])
      | value w => exact absurd hf (by simp [Geometry.figure?])
      | segment id =>
        obtain ⟨s', hs', hSame⟩ := Option.map_eq_some_iff.mp hf
        obtain rfl := Figure.segment.inj hSame
        exact .parallelism (hLengths id s' ho hs')

theorem hasValue_self (h : Transfers g operands kind) (ho : o ∈ operands)
    (hBound : ∃ r, Residual.bind g kind [o, o] = .ok (some r)) :
    Residual.HasValue g kind [o, o] 0 := by
  obtain ⟨r, hr⟩ := hBound
  obtain ⟨a, b, f, f', v, hPair, hf, hf', hGap, hValue⟩ := Residual.value?_of_bind hr (.refl g)
  obtain ⟨rfl, rfl⟩ : o = a ∧ o = b := by simpa using hPair
  obtain rfl := Option.some.inj (hf.symm.trans hf')
  obtain rfl := Residual.gap?_self (h.passesOver ho hf hGap) hGap
  exact ⟨r, hr, hValue⟩

theorem hasValue_trans (h : Transfers g operands kind) (ho' : o' ∈ operands)
    (hBound : ∃ r, Residual.bind g kind [o, o''] = .ok (some r))
    (hFirst : Residual.HasValue g kind [o, o'] 0) (hSecond : Residual.HasValue g kind [o', o''] 0) :
    Residual.HasValue g kind [o, o''] 0 := by
  have hBoundFirst : ∃ r, Residual.bind g kind [o, o'] = .ok (some r) :=
    hFirst.imp fun _ => And.left
  have hBoundSecond : ∃ r, Residual.bind g kind [o', o''] = .ok (some r) :=
    hSecond.imp fun _ => And.left
  obtain ⟨f, f', hf, hf', hGap⟩ := (Residual.hasValue_iff hBoundFirst).mp hFirst
  obtain ⟨e', f'', he', hf'', hGap'⟩ := (Residual.hasValue_iff hBoundSecond).mp hSecond
  obtain rfl := Option.some.inj (hf'.symm.trans he')
  exact (Residual.hasValue_iff hBound).mpr
    ⟨f, f'', hf, hf'', Residual.gap?_trans (h.passesOver ho' hf' hGap') hGap hGap'⟩

end Transfers

/-! ## What a request stores -/

/-- A run of one type is accepted if two of them are. -/
theorem ConstraintKind.accepts_of_pair {kind : ConstraintKind} {t : OperandType}
    {types : List OperandType} (hSplit : kind.isSplittable = true)
    (h : kind.accepts [t, t] = true) (hTypes : ∀ t' ∈ types, t' = t) (hTwo : 2 ≤ types.length) :
    kind.accepts types = true := by
  obtain ⟨r, hr, hSatisfied⟩ := exists_requirement_of_accepts h
  obtain ⟨pattern, rfl, -⟩ := kind.exists_pattern_of_isSplittable hSplit hr
  refine accepts_of_isSatisfiedBy hr (Requirement.isSatisfiedBy_exactly_iff.mpr (.inr ?_))
  obtain ⟨first, hFirst⟩ := List.exists_mem_of_length_pos (Nat.lt_of_lt_of_le Nat.two_pos hTwo)
  refine ⟨hSplit, (Requirement.length_le_of_isSatisfiedBy hSatisfied).trans hTwo, first, hFirst,
    fun t' ht' => (hTypes t' ht').trans (hTypes first hFirst).symm, fun t' ht' => ?_⟩
  rw [hTypes first hFirst]
  rcases Requirement.isSatisfiedBy_exactly_iff.mp hSatisfied with hPerm |
    ⟨-, -, type, hType, -, hPattern⟩
  · simpa using hPerm.mem_iff.mp ht'
  · rw [hPattern t' ht']
    simpa using hType

namespace Sketch

variable {α : Type} {s s' : Sketch α} {kind : ConstraintKind} {operands : List (Operand α)}
  {fresh : ConstraintId} {ids : List ConstraintId}

/-- A request over a run of operands that exist is granted if the kind takes two of their type. -/
theorem exists_addConstraint (fresh : ConstraintId) {t : OperandType}
    (hSplit : kind.isSplittable = true) (hAccepts : kind.accepts [t, t] = true)
    (hTypes : ∀ o ∈ operands, o.type = t) (hTwo : 2 ≤ operands.length)
    (hContains : ∀ o ∈ operands, s.geometry.contains o = true) :
    ∃ s' ids, s.addConstraint fresh kind operands = .ok (s', ids) := by
  have hRun : kind.accepts (operands.map Operand.type) = true := by
    refine ConstraintKind.accepts_of_pair hSplit hAccepts (fun t' ht' => ?_) ?_
    · obtain ⟨o, ho, rfl⟩ := List.mem_map.mp ht'
      exact hTypes o ho
    · rwa [List.length_map]
  obtain ⟨⟨cs, ids⟩, hAdd⟩ := (Constraints.exists_add_eq_ok_iff s.constraints fresh).mpr hRun
  exact ⟨_, ids, addConstraint_eq_ok_iff.mpr
    ⟨fun o ho => (s.geometry.contains_iff o).mp (hContains o ho), cs, hAdd, rfl⟩⟩

/-- What is stored, by the requirement that the request meets. -/
theorem exists_split (h : s.addConstraint fresh kind operands = .ok (s', ids)) :
    ∃ r made, kind.matching? (operands.map Operand.type) = some r ∧
      s'.constraints.items = s.constraints.items ++ made ∧ (∀ c ∈ made, c.kind = kind) ∧
      made.map (·.operands) = Constraints.split kind r operands := by
  obtain ⟨-, cs, hAdd, rfl⟩ := addConstraint_eq_ok_iff.mp h
  cases hMatching : kind.matching? (operands.map Operand.type) with
  | none => simp [Constraints.add, hMatching] at hAdd
  | some r =>
    rw [Constraints.add_of_matching? hMatching] at hAdd
    obtain ⟨rfl, -⟩ := Prod.mk.inj (Except.ok.inj hAdd)
    exact ⟨r, _, rfl, rfl, fun c hc => (Constraints.mem_name hc).1,
      Constraints.map_operands_name fresh kind _⟩

/-- A pattern of two operands of one type is met by every two neighbours. -/
theorem split_eq_consecutivePairs (hSplit : kind.isSplittable = true) (t : OperandType) :
    Constraints.split kind (.exactly [t, t]) operands = Constraints.consecutivePairs operands := by
  rw [Constraints.split, if_pos hSplit]
  rfl

end Sketch

/-- The stored constraints `made` hold between every two operands of the request: their equations
are zero exactly when those of all pairs are. -/
structure Spans (g : Geometry ℝ) (kind : ConstraintKind) (operands : List (Operand ℝ))
    (made : List (Constraint ℝ)) : Prop where
  pairs : made.map (·.operands) = Constraints.consecutivePairs operands
  hasValue : ∀ o ∈ operands, ∀ o' ∈ operands, ∃ v, Residual.HasValue g kind [o, o'] v
  zero_iff : (∀ c ∈ made, Residual.HasValue g c.kind c.operands 0) ↔
    ∀ o ∈ operands, ∀ o' ∈ operands, Residual.HasValue g kind [o, o'] 0

section Equations

variable {g : Geometry ℝ} {kind : ConstraintKind} {operands : List (Operand ℝ)} {t : OperandType}

/-- Every two operands of such a request can be bound. -/
theorem Residual.exists_bind_of_matching? (hResidual : kind.hasResidual = true)
    (hMatching : kind.matching? (operands.map Operand.type) = some (.exactly [t, t]))
    (hHas : ∀ o ∈ operands, g.Has o) : ∀ o ∈ operands, ∀ o' ∈ operands,
      ∃ r, Residual.bind g kind [o, o'] = .ok (some r) := by
  obtain ⟨hr, hSatisfied⟩ := Constraints.isSatisfiedBy_of_matching? hMatching
  have hType : ∀ o ∈ operands, o.type = t := by
    intro o ho
    have hMem := Requirement.mem_of_isSatisfiedBy hSatisfied (by simp) (List.mem_map_of_mem ho)
    simpa using hMem
  have hAccepts : kind.accepts [t, t] = true := ConstraintKind.accepts_of_isSatisfiedBy hr
    (Requirement.isSatisfiedBy_exactly_iff.mpr (.inl (.refl _)))
  intro o ho o' ho'
  refine Residual.exists_bind_pair hResidual ?_ (hHas o ho) (hHas o' ho')
  rw [hType o ho, hType o' ho', hAccepts]

theorem spans_of_transfers (hTransfers : Transfers g operands kind)
    (hBound : ∀ o ∈ operands, ∀ o' ∈ operands, ∃ r, Residual.bind g kind [o, o'] = .ok (some r))
    {made : List (Constraint ℝ)} (hKind : ∀ c ∈ made, c.kind = kind)
    (hMade : made.map (·.operands) = Constraints.consecutivePairs operands) :
    Spans g kind operands made := by
  refine ⟨hMade, fun o ho o' ho' => ?_, fun hStored => ?_, fun hAll c hc => ?_⟩
  · obtain ⟨r, hr⟩ := hBound o ho o' ho'
    obtain ⟨v, hv⟩ := Option.isSome_iff_exists.mp (Residual.isSome_value?_of_bind hr (.refl g))
    exact ⟨v, r, hr, hv⟩
  · refine rel_of_consecutivePairs (fun o ho => hTransfers.hasValue_self ho (hBound o ho o ho))
      (fun o ho o' ho' => Residual.hasValue_swap (hBound o' ho' o ho))
      (fun o ho o' ho' o'' ho'' => hTransfers.hasValue_trans ho' (hBound o ho o'' ho''))
      fun o o' hPair => ?_
    rw [← hMade] at hPair
    obtain ⟨c, hc, hOperands⟩ := List.mem_map.mp hPair
    have hValue := hStored c hc
    rwa [hKind c hc, hOperands] at hValue
  · have hPair : c.operands ∈ Constraints.consecutivePairs operands :=
      hMade ▸ List.mem_map_of_mem hc
    obtain ⟨o, o', hOperands, ho, ho'⟩ := Constraints.mem_consecutivePairs hPair
    rw [hKind c hc, hOperands]
    exact hAll o ho o' ho'

end Equations

/-! ## Coordinates that are tied -/

/-- The constraints `made` put the coordinates of all listed points along an axis into one class of
a linkage, whatever other constraints there are. -/
structure Joins {α : Type} [Zero α] (g : Geometry α) (operands : List (Operand α))
    (made : List (Constraint α)) (axis : Axis) : Prop where
  pairs : made.map (·.operands) = Constraints.consecutivePairs operands
  exists_build : ∀ active : Option PointRef, (∀ p, active = some p → (g.pointIndex? p).isSome) →
    ∃ l, Linkage.build g made active = .ok l
  oneClass : ∀ constraints active l, (∀ c ∈ made, c ∈ constraints) →
    Linkage.build g constraints active = .ok l →
      ∃ representative, ∀ p, .point p ∈ operands →
        ∃ i, g.pointIndex? p = some i ∧ l.representative (axis.slot i) = representative

section Ties

variable {α : Type} {g : Geometry α} {kind : ConstraintKind} {operands : List (Operand α)}
  {axis : Axis} {made constraints : List (Constraint α)}

theorem Operand.exists_eq_point {o : Operand α} (h : o.type = .point) : ∃ p, o = .point p := by
  cases o with
  | point p => exact ⟨p, rfl⟩
  | segment id => exact absurd h (by simp [Operand.type])
  | arc id => exact absurd h (by simp [Operand.type])
  | value v => exact absurd h (by simp [Operand.type])

/-- The canonical index of a listed point. -/
def Geometry.place (g : Geometry α) : Operand α → Nat
  | .point p => (g.pointIndex? p).getD 0
  | _ => 0

theorem Geometry.pointIndex?_eq_place {p : PointRef} (h : g.Has (.point p)) :
    g.pointIndex? p = some (g.place (.point p)) := by
  obtain ⟨i, hi⟩ := Option.isSome_iff_exists.mp (h.isSome_pointIndex? (List.mem_singleton_self p))
  rw [place, hi, Option.getD_some]

theorem Linkage.isSlot_place {p : PointRef} (h : g.Has (.point p)) (axis : Axis) :
    IsSlot g axis p (axis.slot (g.place (.point p))) :=
  ⟨_, Geometry.pointIndex?_eq_place h, rfl⟩

theorem sameCoordinate_of_pairs (hTies : kind.Ties axis) (hPoints : ∀ o ∈ operands, o.type = .point)
    (hHas : ∀ o ∈ operands, g.Has o) (hKind : ∀ c ∈ made, c.kind = kind)
    (hMade : made.map (·.operands) = Constraints.consecutivePairs operands)
    (hSubset : ∀ c ∈ made, c ∈ constraints) : ∀ o ∈ operands, ∀ o' ∈ operands,
      Linkage.SameCoordinate g constraints (axis.slot (g.place o)) (axis.slot (g.place o')) := by
  refine rel_of_consecutivePairs (fun o _ => .refl _) (fun o _ o' _ => .symm _ _)
    (fun o _ o' _ o'' _ => .trans _ _ _) fun o o' hPair => ?_
  obtain ⟨a, b, hEq, ho, ho'⟩ := Constraints.mem_consecutivePairs hPair
  obtain ⟨rfl, rfl⟩ : o = a ∧ o' = b := by simpa using hEq
  rw [← hMade] at hPair
  obtain ⟨c, hc, hOperands⟩ := List.mem_map.mp hPair
  obtain ⟨p, rfl⟩ := Operand.exists_eq_point (hPoints o ho)
  obtain ⟨q, rfl⟩ := Operand.exists_eq_point (hPoints o' ho')
  have hMem : p ∈ c.points ∧ q ∈ c.points := by
    simp [Constraint.points, hOperands, Operand.points]
  exact .rel _ _ ⟨c, hSubset c hc, axis, hKind c hc ▸ hTies,
    ⟨p, hMem.1, Linkage.isSlot_place (hHas _ ho) axis⟩,
    q, hMem.2, Linkage.isSlot_place (hHas _ ho') axis⟩

/-- All that the stored constraints tie can be found. -/
theorem exists_build_of_pairs [Zero α] (hHas : ∀ o ∈ operands, g.Has o)
    (hMade : made.map (·.operands) = Constraints.consecutivePairs operands)
    {active : Option PointRef} (hActive : ∀ p, active = some p → (g.pointIndex? p).isSome) :
    ∃ l, Linkage.build g made active = .ok l := by
  refine ⟨_, (Linkage.build_eq_ok_iff made active _).mpr ⟨hActive, fun c hc _ p hp => ?_, rfl⟩⟩
  obtain ⟨o, ho, hPoint⟩ := List.mem_flatMap.mp hp
  have hPair : c.operands ∈ Constraints.consecutivePairs operands :=
    hMade ▸ List.mem_map_of_mem hc
  obtain ⟨a, b, hOperands, ha, hb⟩ := Constraints.mem_consecutivePairs hPair
  rw [hOperands] at ho
  rcases List.mem_pair.mp ho with rfl | rfl
  · exact (hHas _ ha).isSome_pointIndex? hPoint
  · exact (hHas _ hb).isSome_pointIndex? hPoint

theorem joins_of_pairs [Zero α] (hTies : kind.Ties axis)
    (hPoints : ∀ o ∈ operands, o.type = .point) (hHas : ∀ o ∈ operands, g.Has o)
    (hKind : ∀ c ∈ made, c.kind = kind)
    (hMade : made.map (·.operands) = Constraints.consecutivePairs operands) :
    Joins g operands made axis := by
  refine ⟨hMade, fun _ => exists_build_of_pairs hHas hMade,
    fun constraints active l hSubset hBuild => ?_⟩
  have hPlace : ∀ p, .point p ∈ operands → g.pointIndex? p = some (g.place (.point p)) :=
    fun p hp => Geometry.pointIndex?_eq_place (hHas _ hp)
  cases operands with
  | nil => exact ⟨0, fun p hp => absurd hp List.not_mem_nil⟩
  | cons first rest =>
    obtain ⟨q, rfl⟩ := Operand.exists_eq_point (hPoints first List.mem_cons_self)
    have hq := hPlace q List.mem_cons_self
    refine ⟨l.representative (axis.slot (g.place (.point q))), fun p hp => ⟨_, hPlace p hp, ?_⟩⟩
    refine (Linkage.representative_eq_iff hBuild ?_ ?_).mpr ?_
    · exact Linkage.slot_lt (Geometry.pointIndex?_lt (hPlace p hp))
    · exact Linkage.slot_lt (Geometry.pointIndex?_lt hq)
    · exact sameCoordinate_of_pairs hTies hPoints hHas hKind hMade hSubset _ hp _ List.mem_cons_self

/-- Points are met only by the pattern of two points. -/
theorem ConstraintKind.eq_pair_of_points (hKind : kind = .horizontality ∨ kind = .verticality)
    {r : Requirement} (hMatching : kind.matching? (operands.map Operand.type) = some r)
    (hPoints : ∀ o ∈ operands, o.type = .point) : r = .exactly [.point, .point] := by
  obtain ⟨hr, hSatisfied⟩ := Constraints.isSatisfiedBy_of_matching? hMatching
  have hTable : r = .exactly [.segment] ∨ r = .exactly [.point, .point] := by
    rcases hKind with rfl | rfl
    · simpa [ConstraintKind.requirements] using hr
    · simpa [ConstraintKind.requirements] using hr
  refine hTable.resolve_left ?_
  rintro rfl
  have hLength := Requirement.length_le_of_isSatisfiedBy hSatisfied
  rw [List.length_map] at hLength
  obtain ⟨o, ho⟩ := List.exists_mem_of_length_pos (Nat.lt_of_succ_le hLength)
  have hMem := Requirement.mem_of_isSatisfiedBy hSatisfied (by simp) (List.mem_map_of_mem ho)
  rw [hPoints o ho] at hMem
  exact absurd hMem (by decide)

end Ties

/-! ## Nothing is lost -/

/-- The stored constraints say as much as a granted request. -/
theorem Sketch.exists_neighbours {s s' : Sketch ℝ} {fresh : ConstraintId} {kind : ConstraintKind}
    {operands : List (Operand ℝ)} {ids : List ConstraintId}
    (h : s.addConstraint fresh kind operands = .ok (s', ids)) :
    ∃ made, s'.constraints.items = s.constraints.items ++ made ∧ (∀ c ∈ made, c.kind = kind) ∧
      ∀ g, s.geometry.SameIds g →
        (Transfers g operands kind → Spans g kind operands made) ∧
        ((∀ o ∈ operands, o.type = .point) →
          (kind = .horizontality → Joins g operands made .y) ∧
          (kind = .verticality → Joins g operands made .x)) := by
  obtain ⟨r, made, hMatching, hItems, hKind, hSplit⟩ := exists_split h
  obtain ⟨hHas, -⟩ := addConstraint_eq_ok_iff.mp h
  refine ⟨made, hItems, hKind, fun g hIds => ?_⟩
  have hHas : ∀ o ∈ operands, g.Has o := fun o ho => (hIds.has_iff o).mp (hHas o ho)
  refine ⟨fun hTransfers => ?_, fun hPoints => ⟨?_, ?_⟩⟩
  · have hr := (Constraints.isSatisfiedBy_of_matching? hMatching).1
    obtain ⟨t, rfl⟩ := hTransfers.exists_pattern hr
    rw [split_eq_consecutivePairs hTransfers.isSplittable] at hSplit
    exact spans_of_transfers hTransfers
      (Residual.exists_bind_of_matching? hTransfers.hasResidual hMatching hHas) hKind hSplit
  · rintro rfl
    obtain rfl := ConstraintKind.eq_pair_of_points (.inl rfl) hMatching hPoints
    rw [split_eq_consecutivePairs rfl] at hSplit
    exact joins_of_pairs .horizontality hPoints hHas hKind hSplit
  · rintro rfl
    obtain rfl := ConstraintKind.eq_pair_of_points (.inr rfl) hMatching hPoints
    rw [split_eq_consecutivePairs rfl] at hSplit
    exact joins_of_pairs .verticality hPoints hHas hKind hSplit

/-- **A request over many operands loses nothing by being stored as pairs of neighbours.**  It is
granted over every run of two or more operands of a type that the kind takes two of.  Then equal
lengths or radii, common centres and, of segments that are not collapsed, one direction hold between
every two operands exactly when they hold between neighbours; and points on a level, or on a plumb
line, share one coordinate. -/
theorem Sketch.neighbours_suffice (s : Sketch ℝ) (fresh : ConstraintId) (kind : ConstraintKind)
    (operands : List (Operand ℝ)) :
    (∀ t, kind.isSplittable = true → kind.accepts [t, t] = true →
      (∀ o ∈ operands, o.type = t) → 2 ≤ operands.length →
      (∀ o ∈ operands, s.geometry.contains o = true) →
      ∃ s' ids, s.addConstraint fresh kind operands = .ok (s', ids)) ∧
    ∀ s' ids, s.addConstraint fresh kind operands = .ok (s', ids) →
      ∃ made, s'.constraints.items = s.constraints.items ++ made ∧ (∀ c ∈ made, c.kind = kind) ∧
        ∀ g, s.geometry.SameIds g →
          (Transfers g operands kind → Spans g kind operands made) ∧
          ((∀ o ∈ operands, o.type = .point) →
            (kind = .horizontality → Joins g operands made .y) ∧
            (kind = .verticality → Joins g operands made .x)) :=
  ⟨fun _ hSplit hAccepts hTypes hTwo hContains =>
    exists_addConstraint fresh hSplit hAccepts hTypes hTwo hContains, fun _ _ => exists_neighbours⟩

/-- Three segments, the last one in the other direction. -/
noncomputable def ladder : Sketch ℝ :=
  ⟨⟨[⟨⟨0⟩, ⟨0, 0⟩, ⟨1, 0⟩⟩, ⟨⟨1⟩, ⟨-1, 1⟩, ⟨1, 1⟩⟩, ⟨⟨2⟩, ⟨1, -1⟩, ⟨0, -1⟩⟩], []⟩, .empty⟩

/-- The three segments. -/
def rungs : List (Operand ℝ) := [.segment ⟨0⟩, .segment ⟨1⟩, .segment ⟨2⟩]

/-- Three of their ends. -/
def feet : List (Operand ℝ) := [.point (.start ⟨0⟩), .point (.stop ⟨2⟩), .point (.start ⟨1⟩)]

theorem transfers_ladder : Transfers ladder.geometry rungs .parallelism := by
  refine .parallelism fun id s hId hs hZero => ?_
  have hx : s.vector.x = 0 := congrArg Vec2.x (Vec2.norm_eq_zero_iff.mp hZero)
  simp only [rungs, List.mem_cons, Operand.segment.injEq, List.not_mem_nil, or_false] at hId
  rcases hId with rfl | rfl | rfl
  · obtain rfl : ⟨⟨0, 0⟩, ⟨1, 0⟩⟩ = s := Option.some.inj hs
    norm_num [Segment.vector] at hx
  · obtain rfl : ⟨⟨-1, 1⟩, ⟨1, 1⟩⟩ = s := Option.some.inj hs
    norm_num [Segment.vector] at hx
  · obtain rfl : ⟨⟨1, -1⟩, ⟨0, -1⟩⟩ = s := Option.some.inj hs
    norm_num [Segment.vector] at hx

theorem Sketch.neighbours_suffice_ladder :
    (∃ s' ids made, ladder.addConstraint ⟨0⟩ .parallelism rungs = .ok (s', ids) ∧
      s'.constraints.items = made ∧ Transfers ladder.geometry rungs .parallelism ∧
      Spans ladder.geometry .parallelism rungs made) ∧
    ∃ s' ids made, ladder.addConstraint ⟨0⟩ .verticality feet = .ok (s', ids) ∧
      s'.constraints.items = made ∧ (∀ o ∈ feet, o.type = .point) ∧
      Joins ladder.geometry feet made .x := by
  have hPoints : ∀ o ∈ feet, o.type = .point := by simp [feet, Operand.type]
  obtain ⟨hGranted, hRungs⟩ := neighbours_suffice ladder ⟨0⟩ .parallelism rungs
  obtain ⟨hGranted', hFeet⟩ := neighbours_suffice ladder ⟨0⟩ .verticality feet
  have hRungsExist : ∀ o ∈ rungs, ladder.geometry.contains o = true := by
    rw [rungs, List.forall_mem_cons, List.forall_mem_cons, List.forall_mem_singleton]
    exact ⟨rfl, rfl, rfl⟩
  have hFeetExist : ∀ o ∈ feet, ladder.geometry.contains o = true := by
    rw [feet, List.forall_mem_cons, List.forall_mem_cons, List.forall_mem_singleton]
    exact ⟨rfl, rfl, rfl⟩
  obtain ⟨s', ids, hAdd⟩ := hGranted .segment rfl rfl (by simp [rungs, Operand.type])
    (by simp [rungs]) hRungsExist
  obtain ⟨s'', ids', hAdd'⟩ := hGranted' .point rfl rfl hPoints (by simp [feet]) hFeetExist
  obtain ⟨made, hItems, -, hMade⟩ := hRungs s' ids hAdd
  obtain ⟨made', hItems', -, hMade'⟩ := hFeet s'' ids' hAdd'
  exact ⟨⟨s', ids, made, hAdd, hItems, transfers_ladder, (hMade _ (.refl _)).1 transfers_ladder⟩,
    s'', ids', made', hAdd', hItems', hPoints, ((hMade' _ (.refl _)).2 hPoints).2 rfl⟩

end PlaneSketch
