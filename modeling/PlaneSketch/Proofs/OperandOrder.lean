import PlaneSketch.Proofs.Binding
import PlaneSketch.Proofs.Plane.Vectors

/-!
# The order of operands

Neither the catalog nor an equation cares in which order the operands are given.

* `ConstraintKind.matching?_perm`: **the requirement that is met hangs on the operand types up to
  their order.**
* `ConstraintKind.countP_isSatisfiedBy_le_one`: **no other one is met**, so that the table could be
  in any order (`ConstraintKind.find?_requirements_perm`).
* `Residual.gap?_swap`: an equation between two figures read backwards is the same or its negative.
* `operand_order_irrelevant`: **a request and a binding do not look at the order of operands.**
-/

namespace PlaneSketch

/-- With at most one element to find it does not matter where it is. -/
theorem find?_perm {β : Type} {p : β → Bool} {l l' : List β} (h : l.Perm l')
    (hOnly : ∀ x ∈ l, ∀ y ∈ l, p x = true → p y = true → x = y) : l.find? p = l'.find? p := by
  cases hFind : l.find? p with
  | none =>
    refine (List.find?_eq_none.mpr fun x hx => ?_).symm
    exact List.find?_eq_none.mp hFind x (h.mem_iff.mpr hx)
  | some x =>
    have hx : x ∈ l := List.mem_of_find?_eq_some hFind
    have hpx : p x = true := List.find?_some hFind
    obtain ⟨y, hy⟩ := Option.isSome_iff_exists.mp (List.find?_isSome.mpr ⟨x, h.mem_iff.mp hx, hpx⟩)
    have hyl : y ∈ l := h.mem_iff.mpr (List.mem_of_find?_eq_some hy)
    rw [hy, hOnly x hx y hyl hpx (List.find?_some hy)]

/-! ## The catalog -/

namespace Requirement

variable {kind : ConstraintKind} {r : Requirement} {types types' : List OperandType}

theorem isSatisfiedBy_perm (h : types.Perm types') (r : Requirement) (kind : ConstraintKind) :
    r.isSatisfiedBy kind types = r.isSatisfiedBy kind types' := by
  rw [Bool.eq_iff_iff]
  cases r with
  | exactly pattern =>
    have hOrder : pattern.Perm types ↔ pattern.Perm types' := ⟨(·.trans h), (·.trans h.symm)⟩
    simp only [isSatisfiedBy_exactly_iff, hOrder, h.length_eq, h.mem_iff]
  | moreThanOne type =>
    simp only [isSatisfiedBy, h.length_eq, Bool.and_eq_true, List.all_eq_true, h.mem_iff]

/-- The types that a pattern speaks of. -/
def members : Requirement → List OperandType
  | exactly pattern => pattern
  | moreThanOne type => [type]

end Requirement

namespace ConstraintKind

variable {kind : ConstraintKind} {r r' : Requirement} {types types' : List OperandType}

theorem members_ne_nil (hr : r ∈ kind.requirements) : r.members ≠ [] := by
  revert r
  cases kind <;> decide

/-- Operands that meet a pattern are of its types, of all of them and of no other. -/
theorem mem_iff_of_isSatisfiedBy (hr : r ∈ kind.requirements)
    (h : r.isSatisfiedBy kind types = true) (t : OperandType) : t ∈ types ↔ t ∈ r.members := by
  have hMembers := members_ne_nil hr
  cases r with
  | exactly pattern =>
    refine ⟨Requirement.mem_of_isSatisfiedBy h hMembers, fun ht => ?_⟩
    rcases Requirement.isSatisfiedBy_exactly_iff.mp h with hPerm | ⟨-, -, type, hType, -, hPattern⟩
    · exact hPerm.mem_iff.mp ht
    · rwa [hPattern t ht]
  | moreThanOne type =>
    rw [Requirement.isSatisfiedBy, Bool.and_eq_true, decide_eq_true_eq, List.all_eq_true] at h
    obtain ⟨hLength, hTypes⟩ := h
    rw [Requirement.members, List.mem_singleton]
    refine ⟨fun ht => eq_of_beq (hTypes t ht), ?_⟩
    rintro rfl
    obtain ⟨first, rest, rfl⟩ := List.exists_cons_of_length_pos (Nat.zero_lt_of_lt hLength)
    rw [← eq_of_beq (hTypes first List.mem_cons_self)]
    exact List.mem_cons_self

/-- The patterns of a kind are told apart by whether they speak of segments. -/
theorem eq_of_segment_mem_iff (hr : r ∈ kind.requirements) (hr' : r' ∈ kind.requirements)
    (h : .segment ∈ r.members ↔ .segment ∈ r'.members) : r = r' := by
  have hTable : ∀ r ∈ kind.requirements, ∀ r' ∈ kind.requirements,
      (.segment ∈ r.members ↔ .segment ∈ r'.members) → r = r' := by
    cases kind <;> decide
  exact hTable r hr r' hr' h

/-- **No two patterns of a kind are met at once.** -/
theorem eq_of_isSatisfiedBy (hr : r ∈ kind.requirements) (hr' : r' ∈ kind.requirements)
    (h : r.isSatisfiedBy kind types = true) (h' : r'.isSatisfiedBy kind types = true) : r = r' :=
  eq_of_segment_mem_iff hr hr'
    ((mem_iff_of_isSatisfiedBy hr h _).symm.trans (mem_iff_of_isSatisfiedBy hr' h' _))

theorem nodup_requirements (kind : ConstraintKind) : kind.requirements.Nodup := by
  cases kind <;> decide

/-- **At most one entry of the table is met.** -/
theorem countP_isSatisfiedBy_le_one (kind : ConstraintKind) (types : List OperandType) :
    kind.requirements.countP (·.isSatisfiedBy kind types) ≤ 1 := by
  rw [List.countP_eq_length_filter]
  have hNodup := kind.nodup_requirements.filter (·.isSatisfiedBy kind types)
  rcases hMet : kind.requirements.filter (·.isSatisfiedBy kind types) with _ | ⟨r, _ | ⟨r', rest⟩⟩
  · rw [hMet]
    exact Nat.zero_le 1
  · rw [hMet]
    exact Nat.le_refl 1
  · have hMem : ∀ q ∈ r :: r' :: rest, q ∈ kind.requirements ∧ q.isSatisfiedBy kind types = true :=
      fun q hq => List.mem_filter.mp (hMet ▸ hq)
    obtain ⟨hr, hSatisfied⟩ := hMem r (by simp)
    obtain ⟨hr', hSatisfied'⟩ := hMem r' (by simp)
    rw [hMet, eq_of_isSatisfiedBy hr hr' hSatisfied hSatisfied'] at hNodup
    exact absurd List.mem_cons_self (List.nodup_cons.mp hNodup).1

/-- **The table could be in any order.** -/
theorem find?_requirements_perm {table : List Requirement} (h : table.Perm kind.requirements)
    (types : List OperandType) :
    table.find? (·.isSatisfiedBy kind types) = kind.matching? types :=
  (find?_perm h.symm fun _ hr _ hr' => eq_of_isSatisfiedBy hr hr').symm

/-- **So could the operands.** -/
theorem matching?_perm (kind : ConstraintKind) (h : types.Perm types') :
    kind.matching? types = kind.matching? types' := by
  simp only [matching?, Requirement.isSatisfiedBy_perm h]

theorem accepts_perm (kind : ConstraintKind) (h : types.Perm types') :
    kind.accepts types = kind.accepts types' := by
  rw [accepts, accepts, kind.matching?_perm h]

end ConstraintKind

/-! ## Equations -/

namespace Residual

/-- **An equation between two figures read backwards is the same or its negative.** -/
theorem gap?_swap {kind : ConstraintKind} {f f' : Figure ℝ} {v w : ℝ}
    (h : gap? kind f f' = some v) (h' : gap? kind f' f = some w) : w = v ∨ w = -v := by
  cases kind <;> cases f <;> cases f' <;> simp only [gap?, reduceCtorEq, Option.some.injEq] at h h'
  all_goals subst h h'
  case parallelism.segment.segment =>
    refine Or.inr ?_
    rw [Vec2.cross_eq, Vec2.cross_eq]
    ring
  case perpendicularity.segment.segment =>
    refine Or.inl ?_
    rw [Vec2.dot_eq, Vec2.dot_eq]
    ring
  case equalLengthOrRadius.segment.segment => exact Or.inr (neg_sub _ _).symm
  case equalLengthOrRadius.arc.arc => exact Or.inr (neg_sub _ _).symm
  case tangency.arc.arc =>
    refine Or.inl ?_
    rw [distance_comm, add_comm]
  case concentricity.arc.arc => exact Or.inl (distance_comm _ _)
  -- a segment or an arc beside a figure of another sort is the same either way
  all_goals exact Or.inl rfl

/-- Two operands that are bound are bound backwards, too. -/
theorem exists_bind_swap {α : Type} {g : Geometry α} {kind : ConstraintKind} {o o' : Operand α}
    {bound : Option (Residual α)} (h : bind g kind [o, o'] = .ok bound) :
    ∃ bound', bind g kind [o', o] = .ok bound' ∧ bound'.isSome = bound.isSome := by
  cases bound with
  | none =>
    have hNone := (bind_eq_none_iff g kind [o, o']).mp h
    exact ⟨none, (bind_eq_none_iff g kind [o', o]).mpr hNone, rfl⟩
  | some r =>
    obtain ⟨hResidual, a, b, hPair, hAccepts, hHas, hHas'⟩ :=
      (exists_bind_eq_some_iff g kind [o, o']).mp ⟨r, h⟩
    obtain ⟨rfl, rfl⟩ : o = a ∧ o' = b := by simpa using hPair
    rw [kind.accepts_perm (.swap _ _ _)] at hAccepts
    obtain ⟨r', hBind⟩ := (exists_bind_eq_some_iff g kind [o', o]).mpr
      ⟨hResidual, o', o, rfl, hAccepts, hHas', hHas⟩
    exact ⟨some r', hBind, rfl⟩

/-- **Two equations over the same operands in either order have the same value or opposite
ones.** -/
theorem value?_of_bind_swap {g g' : Geometry ℝ} {kind : ConstraintKind} {o o' : Operand ℝ}
    {r r' : Residual ℝ} (h : bind g kind [o, o'] = .ok (some r))
    (h' : bind g kind [o', o] = .ok (some r')) (hIds : g.SameIds g') :
    ∃ v w, r.value? g' = some v ∧ r'.value? g' = some w ∧ (w = v ∨ w = -v) := by
  obtain ⟨a, b, f, f', v, hPair, hf, hf', hGap, hValue⟩ := value?_of_bind h hIds
  obtain ⟨b', a', e', e, w, hPair', he', he, hGap', hValue'⟩ := value?_of_bind h' hIds
  obtain ⟨rfl, rfl⟩ : o = a ∧ o' = b := by simpa using hPair
  obtain ⟨rfl, rfl⟩ : o' = b' ∧ o = a' := by simpa using hPair'
  obtain rfl := Option.some.inj (hf.symm.trans he)
  obtain rfl := Option.some.inj (hf'.symm.trans he')
  exact ⟨v, w, hValue, hValue', gap?_swap hGap hGap'⟩

end Residual

/-- **Neither a request nor a binding looks at the order of operands.**  A kind accepts the same
types in any order, by the same requirement, which is the only one that they meet; two operands are
bound both ways or neither way, and the two equations have the same value up to its sign. -/
theorem operand_order_irrelevant (kind : ConstraintKind) :
    (∀ types types' : List OperandType, types.Perm types' →
      kind.accepts types = kind.accepts types' ∧ kind.matching? types = kind.matching? types') ∧
    (∀ types, kind.requirements.countP (·.isSatisfiedBy kind types) ≤ 1) ∧
    (∀ table : List Requirement, table.Perm kind.requirements → ∀ types,
      table.find? (·.isSatisfiedBy kind types) = kind.matching? types) ∧
    (∀ (α : Type) (g : Geometry α) (o o' : Operand α),
      (∃ bound, Residual.bind g kind [o, o'] = .ok bound) ↔
        ∃ bound, Residual.bind g kind [o', o] = .ok bound) ∧
    ∀ (g : Geometry ℝ) (o o' : Operand ℝ) r, Residual.bind g kind [o, o'] = .ok (some r) →
      ∃ r', Residual.bind g kind [o', o] = .ok (some r') ∧ ∀ g', g.SameIds g' →
        ∃ v w, r.value? g' = some v ∧ r'.value? g' = some w ∧ (w = v ∨ w = -v) := by
  refine ⟨fun types types' h => ⟨kind.accepts_perm h, kind.matching?_perm h⟩,
    kind.countP_isSatisfiedBy_le_one, fun table h => ConstraintKind.find?_requirements_perm h,
    fun α g o o' => ?_, fun g o o' r hBind => ?_⟩
  · have hSwap : ∀ {o o' : Operand α}, (∃ bound, Residual.bind g kind [o, o'] = .ok bound) →
        ∃ bound, Residual.bind g kind [o', o] = .ok bound := by
      rintro o o' ⟨bound, h⟩
      obtain ⟨bound', h', -⟩ := Residual.exists_bind_swap h
      exact ⟨bound', h'⟩
    exact ⟨hSwap, hSwap⟩
  · obtain ⟨bound, hBind', hSome⟩ := Residual.exists_bind_swap hBind
    obtain ⟨r', rfl⟩ := Option.isSome_iff_exists.mp hSome
    exact ⟨r', hBind', fun g' hIds => Residual.value?_of_bind_swap hBind hBind' hIds⟩

/-- Two segments that fork. -/
def fork : Geometry ℝ := ⟨[⟨⟨0⟩, ⟨0, 0⟩, ⟨1, 0⟩⟩, ⟨⟨1⟩, ⟨0, 0⟩, ⟨1, 1⟩⟩], []⟩

theorem operand_order_irrelevant_fork :
    ConstraintKind.tangency.accepts [.segment, .arc] = true ∧
      [Requirement.exactly [.arc, .arc], .exactly [.arc, .segment]].find?
        (·.isSatisfiedBy .tangency [.segment, .arc]) = some (.exactly [.arc, .segment]) ∧
      (Residual.parallel 0 1).value? fork = some 1 ∧
      ∃ r' w, Residual.bind fork .parallelism [.segment ⟨1⟩, .segment ⟨0⟩] = .ok (some r') ∧
        r'.value? fork = some w ∧ (w = 1 ∨ w = -1) := by
  obtain ⟨hPerm, -, hTable, -⟩ := operand_order_irrelevant .tangency
  obtain ⟨-, -, -, -, hSwap⟩ := operand_order_irrelevant .parallelism
  obtain ⟨r', hBind, hValues⟩ := hSwap fork (.segment ⟨0⟩) (.segment ⟨1⟩) (.parallel 0 1) rfl
  obtain ⟨v, w, hv, hw, hSign⟩ := hValues fork (.refl fork)
  have hOne : (Residual.parallel 0 1).value? fork = some 1 := by
    norm_num [Residual.value?, fork, Segment.vector, Vec2.cross]
  obtain rfl := Option.some.inj (hv.symm.trans hOne)
  refine ⟨(hPerm [.segment, .arc] [.arc, .segment] (.swap _ _ _)).1.trans rfl, ?_, hOne, r', w,
    hBind, hw, hSign⟩
  exact (hTable _ (.swap _ _ _) _).trans rfl

end PlaneSketch
