import Mathlib.Data.List.Nodup
import PlaneSketch.Constraint.Residual
import PlaneSketch.Proofs.Geometry

/-!
# What the catalog admits

Which operands a kind accepts, which constraints a request is split into, and which equations can
be bound are written down apart from each other.  Here the three are compared.

* `isSome_ofBounds?`: **two resolved operands have an equation exactly when the kind has one and
  accepts their types.**
* `WellFormed`: the shape that is kept by splitting (`wellFormed_of_mem_split`) and by losing
  operands (`WellFormed.of_sublist`).
* `WellFormed.exists_bind`: a constraint of that shape over existing operands can be bound.
-/

namespace PlaneSketch

/-! ## Equations -/

namespace Residual

variable {α : Type} {g : Geometry α}

def Bound.type : Bound α → OperandType
  | segment _ => .segment
  | arc _ => .arc
  | value _ => .value

/-- **The table of equations agrees with the catalog.** -/
theorem isSome_ofBounds? (kind : ConstraintKind) (a b : Bound α) :
    (ofBounds? kind a b).isSome = (kind.hasResidual && kind.accepts [a.type, b.type]) := by
  cases kind <;> cases a <;> cases b <;> rfl

/-- An operand that exists is resolved to one of its own type, unless it is a point. -/
theorem exists_bindOperand {o : Operand α} (h : g.Has o) (hType : o.type ≠ .point) :
    ∃ b, bindOperand g o = .ok (some b) ∧ b.type = o.type := by
  cases h with
  | point _ => exact absurd rfl hType
  | segment hId =>
    obtain ⟨i, hi⟩ := Option.isSome_iff_exists.mp ((g.isSome_segmentIndex? _).mpr hId)
    exact ⟨.segment i, by rw [bindOperand, hi], rfl⟩
  | arc hId =>
    obtain ⟨i, hi⟩ := Option.isSome_iff_exists.mp ((g.isSome_arcIndex? _).mpr hId)
    exact ⟨.arc i, by rw [bindOperand, hi], rfl⟩
  | value v => exact ⟨.value v, rfl, rfl⟩

theorem ne_point_of_accepts {kind : ConstraintKind} {s t : OperandType}
    (hResidual : kind.hasResidual = true) (hAccepts : kind.accepts [s, t] = true) :
    s ≠ .point ∧ t ≠ .point := by
  revert hResidual hAccepts
  cases kind <;> cases s <;> cases t <;> decide

/-- Two operands that a kind with an equation accepts are bound once each of them is. -/
theorem exists_bind_of_bounds {kind : ConstraintKind} (hResidual : kind.hasResidual = true)
    {o o' : Operand α} (hAccepts : kind.accepts [o.type, o'.type] = true) {a b : Bound α}
    (hBound : bindOperand g o = .ok (some a)) (ha : a.type = o.type)
    (hBound' : bindOperand g o' = .ok (some b)) (hb : b.type = o'.type) :
    ∃ r, bind g kind [o, o'] = .ok (some r) := by
  have hSome : (ofBounds? kind a b).isSome = true := by
    rw [isSome_ofBounds?, hResidual, ha, hb, hAccepts]
    rfl
  obtain ⟨r, hr⟩ := Option.isSome_iff_exists.mp hSome
  refine ⟨r, ?_⟩
  rw [bind, hResidual]
  simp [hBound, hBound', hr, Bind.bind, Except.bind]

theorem exists_bind_pair {kind : ConstraintKind} (hResidual : kind.hasResidual = true)
    {o o' : Operand α} (hAccepts : kind.accepts [o.type, o'.type] = true) (ho : g.Has o)
    (ho' : g.Has o') : ∃ r, bind g kind [o, o'] = .ok (some r) := by
  obtain ⟨hType, hType'⟩ := ne_point_of_accepts hResidual hAccepts
  obtain ⟨a, hBound, ha⟩ := exists_bindOperand ho hType
  obtain ⟨b, hBound', hb⟩ := exists_bindOperand ho' hType'
  exact exists_bind_of_bounds hResidual hAccepts hBound ha hBound' hb

end Residual

/-! ## Requirements -/

namespace Requirement

variable {kind : ConstraintKind} {types pattern : List OperandType}

/-- A pattern is met by its own types in some order, or by a run of its only type. -/
theorem isSatisfiedBy_exactly_iff :
    (exactly pattern).isSatisfiedBy kind types = true ↔ pattern.Perm types ∨
      kind.isSplittable = true ∧ pattern.length ≤ types.length ∧
        ∃ type ∈ types, (∀ t ∈ types, t = type) ∧ ∀ t ∈ pattern, t = type := by
  simp only [isSatisfiedBy, Bool.or_eq_true, List.isPerm_iff]
  refine or_congr_right ?_
  cases types with
  | nil => simp
  | cons first rest =>
    simp only [Bool.and_eq_true, List.all_eq_true, beq_iff_eq, decide_eq_true_eq]
    constructor
    · rintro ⟨⟨⟨hSplit, hLength⟩, hTypes⟩, hPattern⟩
      exact ⟨hSplit, hLength, first, List.mem_cons_self, hTypes, hPattern⟩
    · rintro ⟨hSplit, hLength, type, -, hTypes, hPattern⟩
      obtain rfl := hTypes first List.mem_cons_self
      exact ⟨⟨⟨hSplit, hLength⟩, hTypes⟩, hPattern⟩

theorem length_le_of_isSatisfiedBy (h : (exactly pattern).isSatisfiedBy kind types = true) :
    pattern.length ≤ types.length := by
  rcases isSatisfiedBy_exactly_iff.mp h with hPerm | ⟨-, hLength, -⟩
  · exact Nat.le_of_eq hPerm.length_eq
  · exact hLength

theorem mem_of_isSatisfiedBy (h : (exactly pattern).isSatisfiedBy kind types = true)
    (hPattern : pattern ≠ []) {t : OperandType} (ht : t ∈ types) : t ∈ pattern := by
  rcases isSatisfiedBy_exactly_iff.mp h with hPerm | ⟨-, -, type, -, hTypes, hOnly⟩
  · exact hPerm.mem_iff.mpr ht
  · obtain ⟨u, hu⟩ := List.exists_mem_of_ne_nil pattern hPattern
    rwa [hTypes t ht, ← hOnly u hu]

end Requirement

namespace ConstraintKind

variable {kind : ConstraintKind} {r : Requirement} {types : List OperandType}

theorem accepts_of_isSatisfiedBy (hr : r ∈ kind.requirements)
    (h : r.isSatisfiedBy kind types = true) : kind.accepts types = true := by
  rw [accepts, matching?, List.find?_isSome]
  exact ⟨r, hr, h⟩

theorem exists_requirement_of_accepts (h : kind.accepts types = true) :
    ∃ r ∈ kind.requirements, r.isSatisfiedBy kind types = true := by
  rwa [accepts, matching?, List.find?_isSome] at h

/-- A splittable kind has patterns of one or two types. -/
theorem exists_pattern_of_isSplittable (hSplit : kind.isSplittable = true)
    (hr : r ∈ kind.requirements) :
    ∃ pattern, r = .exactly pattern ∧ (pattern.length = 1 ∨ pattern.length = 2) := by
  cases kind <;> simp only [requirements, List.mem_cons, List.not_mem_nil, or_false] at hr
  all_goals first
    | exact absurd hSplit (by decide)
    | obtain rfl := hr; exact ⟨_, rfl, by decide⟩
    | rcases hr with rfl | rfl <;> exact ⟨_, rfl, by decide⟩

/-- A kind with an equation has patterns of two types. -/
theorem exists_pattern_of_hasResidual (hResidual : kind.hasResidual = true)
    (hr : r ∈ kind.requirements) : ∃ pattern, r = .exactly pattern ∧ pattern.length = 2 := by
  cases kind <;> simp only [requirements, List.mem_cons, List.not_mem_nil, or_false] at hr
  all_goals first
    | exact absurd hResidual (by decide)
    | obtain rfl := hr; exact ⟨_, rfl, by decide⟩
    | rcases hr with rfl | rfl <;> exact ⟨_, rfl, by decide⟩

theorem two_le_length_of_accepts (hResidual : kind.hasResidual = true)
    (h : kind.accepts types = true) : 2 ≤ types.length := by
  obtain ⟨r, hr, hSatisfied⟩ := exists_requirement_of_accepts h
  obtain ⟨pattern, rfl, hLength⟩ := exists_pattern_of_hasResidual hResidual hr
  exact hLength ▸ Requirement.length_le_of_isSatisfiedBy hSatisfied

theorem eq_point_of_accepts_fixed (h : fixed.accepts types = true) :
    ∀ t ∈ types, t = .point := by
  intro t ht
  obtain ⟨r, hr, hSatisfied⟩ := exists_requirement_of_accepts h
  obtain rfl := List.mem_singleton.mp hr
  exact List.mem_singleton.mp (Requirement.mem_of_isSatisfiedBy hSatisfied (by simp) ht)

end ConstraintKind

/-! ## Stored constraints -/

namespace Constraint

variable {α : Type} {g : Geometry α} {c : Constraint α}

/-- The kind accepts the operands, and an equation is about two of them. -/
structure WellFormed (c : Constraint α) : Prop where
  accepted : c.kind.accepts c.types = true
  pair : c.kind.hasResidual = true → c.operands.length = 2

/-- **A well-formed constraint over existing operands can be bound.** -/
theorem WellFormed.exists_bind (h : c.WellFormed) (hHas : ∀ o ∈ c.operands, g.Has o) :
    ∃ b, Residual.bind g c.kind c.operands = .ok b := by
  by_cases hResidual : c.kind.hasResidual = true
  · obtain ⟨o, o', hOperands⟩ := List.length_eq_two.mp (h.pair hResidual)
    have hAccepted := h.accepted
    rw [types, hOperands] at hAccepted
    rw [hOperands] at hHas ⊢
    obtain ⟨r, hr⟩ := Residual.exists_bind_pair hResidual hAccepted
      (hHas o List.mem_cons_self) (hHas o' (by simp))
    exact ⟨some r, hr⟩
  · exact ⟨none, by simp [Residual.bind, hResidual]⟩

/-- Losing operands keeps the shape, as long as the kind accepts what is left. -/
theorem WellFormed.of_sublist (h : c.WellFormed) {d : Constraint α} (hKind : d.kind = c.kind)
    (hSublist : d.operands.Sublist c.operands) (hAccepted : d.kind.accepts d.types = true) :
    d.WellFormed := by
  refine ⟨hAccepted, fun hResidual => ?_⟩
  have hTwo := ConstraintKind.two_le_length_of_accepts hResidual hAccepted
  rw [types, List.length_map] at hTwo
  have hLe := hSublist.length_le
  rw [h.pair (hKind ▸ hResidual)] at hLe
  omega

end Constraint

/-! ## Names in a row -/

namespace ConstraintId

/-- The names handed out one after another from `fresh` on. -/
def block (fresh : ConstraintId) (count : Nat) : List ConstraintId :=
  (List.range count).map fresh.plus

theorem plus_plus (fresh : ConstraintId) (m n : Nat) :
    (fresh.plus m).plus n = fresh.plus (m + n) := by
  simp [plus, Nat.add_assoc]

theorem block_succ (fresh : ConstraintId) (count : Nat) :
    fresh.block (count + 1) = fresh :: (fresh.plus 1).block count := by
  rw [block, block, List.range_succ_eq_map, List.map_cons, List.map_map]
  refine congrArg (fresh :: ·) (List.map_congr_left fun n _ => ?_)
  rw [plus_plus, Function.comp_apply, Nat.add_comm]

theorem nodup_block (fresh : ConstraintId) (count : Nat) : (fresh.block count).Nodup := by
  refine List.Nodup.map (fun m n hEq => ?_) List.nodup_range
  simpa [plus] using hEq

theorem exists_of_mem_block {fresh id : ConstraintId} {count : Nat} (h : id ∈ fresh.block count) :
    ∃ n < count, id = fresh.plus n := by
  obtain ⟨n, hn, rfl⟩ := List.mem_map.mp h
  exact ⟨n, List.mem_range.mp hn, rfl⟩

theorem lt_of_mem_block {fresh id : ConstraintId} {count : Nat} (h : id ∈ fresh.block count) :
    id.number < (fresh.plus count).number := by
  obtain ⟨n, hn, rfl⟩ := exists_of_mem_block h
  exact Nat.add_lt_add_left hn fresh.number

end ConstraintId

/-! ## Splitting a request -/

namespace Constraints

variable {α : Type} {kind : ConstraintKind} {r : Requirement} {operands : List (Operand α)}

theorem mem_consecutivePairs {β : Type} {pair : List β} : ∀ {l : List β},
    pair ∈ consecutivePairs l → ∃ x y, pair = [x, y] ∧ x ∈ l ∧ y ∈ l := by
  intro l
  induction l with
  | nil => intro h; exact absurd h List.not_mem_nil
  | cons x l ih =>
    cases l with
    | nil => intro h; exact absurd h List.not_mem_nil
    | cons y l =>
      intro h
      rcases List.mem_cons.mp h with rfl | h
      · exact ⟨x, y, rfl, by simp, by simp⟩
      · obtain ⟨x', y', rfl, hx, hy⟩ := ih h
        exact ⟨x', y', rfl, List.mem_cons_of_mem _ hx, List.mem_cons_of_mem _ hy⟩

theorem subset_of_mem_split {piece : List (Operand α)} (h : piece ∈ split kind r operands) :
    ∀ o ∈ piece, o ∈ operands := by
  rw [split] at h
  split at h
  · split at h
    · obtain ⟨x, hx, rfl⟩ := List.mem_map.mp h
      simpa using hx
    · obtain ⟨x, y, rfl, hx, hy⟩ := mem_consecutivePairs h
      simpa using ⟨hx, hy⟩
  · obtain rfl := List.mem_singleton.mp h
    exact fun _ ho => ho

/-- As many operands as a pattern has types are not cut. -/
theorem split_eq_singleton (hArity : r.arity = 1 ∨ r.arity = 2)
    (hLength : operands.length = r.arity) : split kind r operands = [operands] := by
  rw [split]
  split
  · rcases hArity with hOne | hTwo
    · obtain ⟨o, rfl⟩ := List.length_eq_one_iff.mp (hLength.trans hOne)
      rw [if_pos hOne]
      rfl
    · obtain ⟨o, o', rfl⟩ := List.length_eq_two.mp (hLength.trans hTwo)
      rw [if_neg (by omega)]
      rfl
  · rfl

/-- A pattern that the operands meet is met by every piece that they are cut into. -/
theorem isSatisfiedBy_of_mem_split (hr : r ∈ kind.requirements)
    (h : r.isSatisfiedBy kind (operands.map Operand.type) = true) {piece : List (Operand α)}
    (hPiece : piece ∈ split kind r operands) :
    r.isSatisfiedBy kind (piece.map Operand.type) = true := by
  have hMem := hPiece
  rw [split] at hPiece
  split at hPiece
  · next hSplit =>
    obtain ⟨pattern, rfl, hLength⟩ := kind.exists_pattern_of_isSplittable hSplit hr
    rcases Requirement.isSatisfiedBy_exactly_iff.mp h with hPerm | ⟨-, -, type, -, hTypes, hPattern⟩
    · -- as many operands as types in the pattern: nothing is cut
      have hCount : operands.length = (Requirement.exactly pattern).arity := by
        rw [Requirement.arity, hPerm.length_eq, List.length_map]
      rw [split_eq_singleton (r := .exactly pattern) hLength hCount, List.mem_singleton] at hMem
      rwa [hMem]
    · have hAll : ∀ o ∈ operands, o.type = type := fun o ho =>
        hTypes _ (List.mem_map_of_mem ho)
      refine Requirement.isSatisfiedBy_exactly_iff.mpr (Or.inl ?_)
      rcases hLength with hOne | hTwo
      · obtain ⟨t, rfl⟩ := List.length_eq_one_iff.mp hOne
        rw [if_pos (by simp [Requirement.arity])] at hPiece
        obtain ⟨x, hx, rfl⟩ := List.mem_map.mp hPiece
        simp [hPattern t (by simp), hAll x hx]
      · obtain ⟨t, t', rfl⟩ := List.length_eq_two.mp hTwo
        rw [if_neg (by simp [Requirement.arity])] at hPiece
        obtain ⟨x, y, rfl, hx, hy⟩ := mem_consecutivePairs hPiece
        simp [hPattern t (by simp), hPattern t' (by simp), hAll x hx, hAll y hy]
  · obtain rfl := List.mem_singleton.mp hPiece
    exact h

theorem length_of_mem_split (hResidual : kind.hasResidual = true) (hr : r ∈ kind.requirements)
    (h : r.isSatisfiedBy kind (operands.map Operand.type) = true) {piece : List (Operand α)}
    (hPiece : piece ∈ split kind r operands) : piece.length = 2 := by
  obtain ⟨pattern, rfl, hLength⟩ := kind.exists_pattern_of_hasResidual hResidual hr
  rw [split] at hPiece
  split at hPiece
  · rw [if_neg (by simp [Requirement.arity, hLength])] at hPiece
    obtain ⟨x, y, rfl, -, -⟩ := mem_consecutivePairs hPiece
    rfl
  · next hSplit =>
    obtain rfl := List.mem_singleton.mp hPiece
    rcases Requirement.isSatisfiedBy_exactly_iff.mp h with hPerm | ⟨hSplittable, -⟩
    · rw [← List.length_map (f := Operand.type), ← hPerm.length_eq, hLength]
    · exact absurd hSplittable hSplit

/-- **Every piece of a request that fits is well-formed.** -/
theorem wellFormed_of_mem_split (h : kind.matching? (operands.map Operand.type) = some r)
    {piece : List (Operand α)} (hPiece : piece ∈ split kind r operands) (id : ConstraintId) :
    Constraint.WellFormed ⟨id, kind, piece⟩ := by
  have hr : r ∈ kind.requirements := List.mem_of_find?_eq_some h
  have hSatisfied : r.isSatisfiedBy kind (operands.map Operand.type) = true :=
    List.find?_some (p := fun r : Requirement => r.isSatisfiedBy kind (operands.map Operand.type)) h
  have hPieceSatisfied := isSatisfiedBy_of_mem_split hr hSatisfied hPiece
  exact ⟨ConstraintKind.accepts_of_isSatisfiedBy hr hPieceSatisfied,
    fun hResidual => length_of_mem_split hResidual hr hSatisfied hPiece⟩

/-! ## Storing the pieces -/

theorem map_id_name (fresh : ConstraintId) (lists : List (List (Operand α))) :
    (name fresh kind lists).map (·.id) = fresh.block lists.length := by
  rw [name, map_mapIdx, ConstraintId.block]
  apply List.ext_getElem
  · simp
  · intro i _ _
    simp

theorem mem_name {fresh : ConstraintId} {lists : List (List (Operand α))} {c : Constraint α}
    (h : c ∈ name fresh kind lists) : c.kind = kind ∧ c.operands ∈ lists := by
  rw [name, List.mem_mapIdx] at h
  obtain ⟨i, hi, rfl⟩ := h
  exact ⟨rfl, List.getElem_mem hi⟩

/-- A request that is granted appends well-formed constraints over its own operands, under names
from `fresh` upwards. -/
theorem add_eq_ok {cs cs' : Constraints α} {fresh : ConstraintId} {ids : List ConstraintId}
    (h : cs.add fresh kind operands = .ok (cs', ids)) :
    ∃ made, cs' = ⟨cs.items ++ made, cs.counters⟩ ∧ ids = made.map (·.id) ∧
      made.map (·.id) = fresh.block ids.length ∧
      ∀ c ∈ made, c.WellFormed ∧ ∀ o ∈ c.operands, o ∈ operands := by
  rw [add] at h
  cases hMatching : kind.matching? (operands.map Operand.type) with
  | none => simp [hMatching] at h
  | some r =>
    rw [hMatching] at h
    obtain ⟨rfl, rfl⟩ := Prod.mk.inj (Except.ok.inj h)
    refine ⟨_, rfl, rfl, ?_, fun c hc => ?_⟩
    · rw [List.length_map, map_id_name]
      simp [name]
    · obtain ⟨hKind, hOperands⟩ := mem_name hc
      obtain ⟨id, kind', operands'⟩ := c
      obtain rfl : kind' = kind := hKind
      exact ⟨wellFormed_of_mem_split hMatching hOperands id, subset_of_mem_split hOperands⟩

/-! ## Fixed points -/

theorem fixes_iff {cs : Constraints α} {p : PointRef} :
    cs.fixes p = true ↔ ∃ c ∈ cs.items, c.kind = .fixed ∧ .point p ∈ c.operands := by
  rw [fixes, List.any_eq_true]
  constructor
  · rintro ⟨c, hc, hFixes⟩
    rw [Bool.and_eq_true, beq_iff_eq, List.any_eq_true] at hFixes
    obtain ⟨hKind, o, ho, hPoint⟩ := hFixes
    cases o with
    | point q =>
      obtain rfl := beq_iff_eq.mp hPoint
      exact ⟨c, hc, hKind, ho⟩
    | segment id => exact absurd hPoint (by simp)
    | arc id => exact absurd hPoint (by simp)
    | value v => exact absurd hPoint (by simp)
  · rintro ⟨c, hc, hKind, ho⟩
    refine ⟨c, hc, ?_⟩
    rw [Bool.and_eq_true, beq_iff_eq, List.any_eq_true]
    exact ⟨hKind, .point p, ho, beq_self_eq_true p⟩

end Constraints

end PlaneSketch
