import PlaneSketch.Proofs.Catalog
import PlaneSketch.Sketch

/-!
# What a request stores

A request over any number of operands is granted or refused as a whole.  If it is granted, the store
grows by atomic constraints: the request itself, or one for each operand, or one for each pair of
neighbours.

* `Atoms`: which operand lists those are, told place by place.
* `Constraints.add_of_mem_split`: **a piece of a request is not cut again**, if it is requested
  itself.
* `Sketch.addConstraint_eq_ok_iff`: a sketch grants what its store does, if every operand exists.
* `Sketch.requests_append_atoms`: what becomes of every request.
-/

namespace PlaneSketch

variable {α : Type}

/-! ## Pairs of neighbours -/

namespace Constraints

variable {β : Type}

theorem length_consecutivePairs (l : List β) : (consecutivePairs l).length = l.length - 1 := by
  induction l with
  | nil => rfl
  | cons x l ih =>
    cases l with
    | nil => rfl
    | cons y l =>
      rw [consecutivePairs, List.length_cons, ih, List.length_cons, List.length_cons]
      rfl

/-- Pair `i` is made of the elements `i` and `i + 1`. -/
theorem getElem?_consecutivePairs {l : List β} : ∀ {i : Nat} {x y : β}, l[i]? = some x →
    l[i + 1]? = some y → (consecutivePairs l)[i]? = some [x, y] := by
  induction l with
  | nil => intro i x y hx; exact absurd hx (by simp)
  | cons a l ih =>
    cases l with
    | nil => intro i x y _ hy; exact absurd hy (by simp)
    | cons b l =>
      intro i x y hx hy
      cases i with
      | zero =>
        obtain rfl := Option.some.inj hx
        obtain rfl := Option.some.inj hy
        rfl
      | succ i => exact ih hx hy

end Constraints

/-! ## The pieces of a request -/

/-- The operand lists of the constraints that a request over `operands` stands for, if it was
matched by the requirement `r`. -/
structure Atoms (kind : ConstraintKind) (r : Requirement) (operands : List (Operand α))
    (lists : List (List (Operand α))) : Prop where
  /-- A kind that is not splittable takes the whole list. -/
  whole : kind.isSplittable = false → lists = [operands]
  /-- A pattern of one type is met by every operand alone. -/
  single : kind.isSplittable = true → r.arity = 1 → lists = operands.map fun o => [o]
  /-- Any other pattern is met by every two neighbours, of which there are one less. -/
  pairs : kind.isSplittable = true → r.arity ≠ 1 → lists.length + 1 = operands.length ∧
    ∀ i x y, operands[i]? = some x → operands[i + 1]? = some y → lists[i]? = some [x, y]

namespace Constraints

variable {kind : ConstraintKind} {r : Requirement} {operands : List (Operand α)}

theorem isSatisfiedBy_of_matching? {types : List OperandType} (h : kind.matching? types = some r) :
    r ∈ kind.requirements ∧ r.isSatisfiedBy kind types = true :=
  ⟨List.mem_of_find?_eq_some h,
    List.find?_some (p := fun r : Requirement => r.isSatisfiedBy kind types) h⟩

/-- The operands of a splittable kind are at least as many as one piece has. -/
theorem arity_le_length (hSplit : kind.isSplittable = true)
    (h : kind.matching? (operands.map Operand.type) = some r) :
    (r.arity = 1 ∨ r.arity = 2) ∧ r.arity ≤ operands.length := by
  obtain ⟨hr, hSatisfied⟩ := isSatisfiedBy_of_matching? h
  obtain ⟨pattern, rfl, hLength⟩ := kind.exists_pattern_of_isSplittable hSplit hr
  have hLe := Requirement.length_le_of_isSatisfiedBy hSatisfied
  rw [List.length_map] at hLe
  exact ⟨hLength, hLe⟩

theorem atoms_split (h : kind.matching? (operands.map Operand.type) = some r) :
    Atoms kind r operands (split kind r operands) := by
  refine ⟨fun hWhole => ?_, fun hSplit hOne => ?_, fun hSplit hOne => ?_⟩
  · rw [split, hWhole]
    rfl
  · rw [split, if_pos hSplit, if_pos hOne]
  · obtain ⟨hArity, hLe⟩ := arity_le_length hSplit h
    rw [split, if_pos hSplit, if_neg hOne, length_consecutivePairs]
    exact ⟨by omega, fun i x y => getElem?_consecutivePairs⟩

theorem split_ne_nil (h : kind.matching? (operands.map Operand.type) = some r) :
    split kind r operands ≠ [] := by
  intro hNil
  have hAtoms := atoms_split h
  rw [hNil] at hAtoms
  cases hSplit : kind.isSplittable with
  | false => exact absurd (hAtoms.whole hSplit) (by simp)
  | true =>
    obtain ⟨hArity, hLe⟩ := arity_le_length hSplit h
    by_cases hOne : r.arity = 1
    · have hMap := congrArg List.length (hAtoms.single hSplit hOne)
      rw [List.length_nil, List.length_map] at hMap
      omega
    · have hPairs := (hAtoms.pairs hSplit hOne).1
      rw [List.length_nil] at hPairs
      omega

theorem length_of_mem_split_of_isSplittable (hSplit : kind.isSplittable = true)
    (hArity : r.arity = 1 ∨ r.arity = 2) {piece : List (Operand α)}
    (hPiece : piece ∈ split kind r operands) : piece.length = r.arity := by
  rw [split, if_pos hSplit] at hPiece
  split at hPiece
  · next hOne =>
    obtain ⟨x, -, rfl⟩ := List.mem_map.mp hPiece
    exact hOne.symm
  · next hOne =>
    obtain ⟨x, y, rfl, -, -⟩ := mem_consecutivePairs hPiece
    exact (hArity.resolve_left hOne).symm

/-- A pattern that is met by a piece of a request is met by the request. -/
theorem isSatisfiedBy_of_piece (hSplit : kind.isSplittable = true)
    (h : kind.matching? (operands.map Operand.type) = some r) {piece : List (Operand α)}
    (hPiece : piece ∈ split kind r operands) {q : Requirement} (hq : q ∈ kind.requirements)
    (hSatisfied : q.isSatisfiedBy kind (piece.map Operand.type) = true) :
    q.isSatisfiedBy kind (operands.map Operand.type) = true := by
  obtain ⟨hArity, hLe⟩ := arity_le_length hSplit h
  have hLength := length_of_mem_split_of_isSplittable hSplit hArity hPiece
  obtain ⟨hr, hMatched⟩ := isSatisfiedBy_of_matching? h
  obtain ⟨pattern, rfl, -⟩ := kind.exists_pattern_of_isSplittable hSplit hr
  rcases Requirement.isSatisfiedBy_exactly_iff.mp hMatched with hPerm |
    ⟨-, -, type, hType, hTypes, -⟩
  · have hWhole : operands.length = (Requirement.exactly pattern).arity := by
      rw [Requirement.arity, hPerm.length_eq, List.length_map]
    rw [split_eq_singleton hArity hWhole, List.mem_singleton] at hPiece
    rwa [hPiece] at hSatisfied
  · -- all operands are of one type, and then so are those of the pattern `q`
    obtain ⟨wanted, rfl, hWanted⟩ := kind.exists_pattern_of_isSplittable hSplit hq
    have hShort := Requirement.length_le_of_isSatisfiedBy hSatisfied
    rw [List.length_map, hLength] at hShort
    have hPieceTypes : ∀ t ∈ piece.map Operand.type, t = type := by
      intro t ht
      obtain ⟨o, ho, rfl⟩ := List.mem_map.mp ht
      exact hTypes _ (List.mem_map_of_mem (subset_of_mem_split hPiece o ho))
    refine Requirement.isSatisfiedBy_exactly_iff.mpr (Or.inr
      ⟨hSplit, by rw [List.length_map]; omega, type, hType, hTypes, fun t ht => ?_⟩)
    rcases Requirement.isSatisfiedBy_exactly_iff.mp hSatisfied with hPerm |
      ⟨-, -, other, hOther, -, hPattern⟩
    · exact hPieceTypes t (hPerm.mem_iff.mp ht)
    · exact (hPattern t ht).trans (hPieceTypes other hOther)

/-- **The requirement that a request was matched by is the first one for each of its pieces too**,
although a piece is shorter than the request and might fit a pattern that comes earlier. -/
theorem matching?_of_mem_split (h : kind.matching? (operands.map Operand.type) = some r)
    {piece : List (Operand α)} (hPiece : piece ∈ split kind r operands) :
    kind.matching? (piece.map Operand.type) = some r := by
  cases hSplit : kind.isSplittable with
  | false =>
    rw [(atoms_split h).whole hSplit, List.mem_singleton] at hPiece
    rwa [hPiece]
  | true =>
    obtain ⟨hr, hSatisfied⟩ := isSatisfiedBy_of_matching? h
    obtain ⟨-, earlier, later, hList, hEarlier⟩ := List.find?_eq_some_iff_append.mp h
    refine List.find?_eq_some_iff_append.mpr
      ⟨isSatisfiedBy_of_mem_split hr hSatisfied hPiece, earlier, later, hList, fun q hq => ?_⟩
    have hNot := hEarlier q hq
    rw [Bool.not_eq_true', Bool.eq_false_iff] at hNot ⊢
    have hq : q ∈ kind.requirements := hList ▸ List.mem_append_left _ hq
    exact mt (isSatisfiedBy_of_piece hSplit h hPiece hq) hNot

theorem split_of_mem_split (h : kind.matching? (operands.map Operand.type) = some r)
    {piece : List (Operand α)} (hPiece : piece ∈ split kind r operands) :
    split kind r piece = [piece] := by
  cases hSplit : kind.isSplittable with
  | false => exact (atoms_split (matching?_of_mem_split h hPiece)).whole hSplit
  | true =>
    obtain ⟨hArity, -⟩ := arity_le_length hSplit h
    exact split_eq_singleton hArity (length_of_mem_split_of_isSplittable hSplit hArity hPiece)

theorem add_of_matching? (h : kind.matching? (operands.map Operand.type) = some r)
    (cs : Constraints α) (fresh : ConstraintId) :
    cs.add fresh kind operands = .ok (⟨cs.items ++ name fresh kind (split kind r operands),
      cs.counters⟩, (name fresh kind (split kind r operands)).map (·.id)) := by
  rw [add, h]

/-- **A piece of a request is not cut again.** -/
theorem add_of_mem_split (h : kind.matching? (operands.map Operand.type) = some r)
    {piece : List (Operand α)} (hPiece : piece ∈ split kind r operands) (cs : Constraints α)
    (fresh : ConstraintId) : cs.add fresh kind piece =
      .ok (⟨cs.items ++ [⟨fresh, kind, piece⟩], cs.counters⟩, [fresh]) := by
  rw [add_of_matching? (matching?_of_mem_split h hPiece), split_of_mem_split h hPiece]
  rfl

theorem add_of_not_accepts (h : kind.accepts (operands.map Operand.type) = false)
    (cs : Constraints α) (fresh : ConstraintId) : cs.add fresh kind operands =
      .error (.requirementMismatch kind (operands.map Operand.type)) := by
  rw [ConstraintKind.accepts, Option.isSome_eq_false_iff, Option.isNone_iff_eq_none] at h
  rw [add, h]

/-- A request is granted exactly when its kind accepts the types of its operands. -/
theorem exists_add_eq_ok_iff (cs : Constraints α) (fresh : ConstraintId) :
    (∃ result, cs.add fresh kind operands = .ok result) ↔
      kind.accepts (operands.map Operand.type) = true := by
  rw [ConstraintKind.accepts, add]
  cases kind.matching? (operands.map Operand.type) with
  | none => simp
  | some r => simp

/-- What the store `cs` becomes by a request that is granted: it grows by `made`, of which the
names are given back. -/
structure Grants (cs : Constraints α) (fresh : ConstraintId) (kind : ConstraintKind)
    (operands : List (Operand α)) (cs' : Constraints α) (ids : List ConstraintId)
    (made : List (Constraint α)) : Prop where
  items : cs'.items = cs.items ++ made
  counters : cs'.counters = cs.counters
  names : ids = made.map (·.id)
  distinct : ids.Nodup
  /-- No old constraint has a name that was taken. -/
  isNew : (∀ c ∈ cs.items, ∀ n, c.id ≠ fresh.plus n) → ∀ id ∈ ids, id ∉ cs.items.map (·.id)
  nonempty : made ≠ []
  sameKind : ∀ c ∈ made, c.kind = kind
  accepted : ∀ c ∈ made, c.kind.accepts c.types = true
  atoms : ∃ r, kind.matching? (operands.map Operand.type) = some r ∧
    Atoms kind r operands (made.map (·.operands))
  /-- If what was made is requested again, it is stored as it is. -/
  atomic : ∀ c ∈ made, ∀ (store : Constraints α) (name : ConstraintId),
    store.add name kind c.operands =
      .ok (⟨store.items ++ [⟨name, kind, c.operands⟩], store.counters⟩, [name])

theorem map_operands_name (fresh : ConstraintId) (kind : ConstraintKind)
    (lists : List (List (Operand α))) :
    (name fresh kind lists).map (·.operands) = lists := by
  rw [name, map_mapIdx]
  exact List.mapIdx_eq_iff.mpr fun i => by simp

theorem grants_of_add {cs cs' : Constraints α} {fresh : ConstraintId} {ids : List ConstraintId}
    (h : cs.add fresh kind operands = .ok (cs', ids)) :
    ∃ made, Grants cs fresh kind operands cs' ids made := by
  cases hMatching : kind.matching? (operands.map Operand.type) with
  | none => simp [add, hMatching] at h
  | some r =>
    rw [add_of_matching? hMatching] at h
    obtain ⟨rfl, rfl⟩ := Prod.mk.inj (Except.ok.inj h)
    refine ⟨_, rfl, rfl, rfl, ?_, fun hFresh id hId hOld => ?_, ?_, fun c hc => (mem_name hc).1,
      fun c hc => ?_, ⟨r, hMatching, ?_⟩, fun c hc store fresh' => ?_⟩
    · rw [map_id_name]
      exact fresh.nodup_block _
    · rw [map_id_name] at hId
      obtain ⟨n, -, rfl⟩ := ConstraintId.exists_of_mem_block hId
      obtain ⟨c, hc, hEq⟩ := List.mem_map.mp hOld
      exact hFresh c hc n hEq
    · intro hNil
      have hLists := map_operands_name fresh kind (split kind r operands)
      rw [hNil] at hLists
      exact split_ne_nil hMatching hLists.symm
    · obtain ⟨hKind, hPiece⟩ := mem_name hc
      rw [hKind, ConstraintKind.accepts, Constraint.types, matching?_of_mem_split hMatching hPiece]
      rfl
    · rw [map_operands_name]
      exact atoms_split hMatching
    · exact add_of_mem_split hMatching (mem_name hc).2 store fresh'

end Constraints

/-! ## Requests to a sketch -/

namespace Sketch

variable {s s' : Sketch α} {kind : ConstraintKind} {operands : List (Operand α)}

theorem missing?_eq_none_iff {g : Geometry α} {o : Operand α} :
    missing? g o = none ↔ g.Has o := by
  rw [← g.contains_iff]
  by_cases hContains : g.contains o = true
  · simp [missing?, hContains]
  · cases o with
    | value v => exact absurd rfl hContains
    | point p => simp [missing?, hContains]
    | segment id => simp [missing?, hContains]
    | arc id => simp [missing?, hContains]

/-- **A sketch grants what its store grants, if every operand exists.** -/
theorem addConstraint_eq_ok_iff {fresh : ConstraintId} {ids : List ConstraintId} :
    s.addConstraint fresh kind operands = .ok (s', ids) ↔ (∀ o ∈ operands, s.geometry.Has o) ∧
      ∃ cs, s.constraints.add fresh kind operands = .ok (cs, ids) ∧ s' = ⟨s.geometry, cs⟩ := by
  rw [addConstraint]
  cases hMissing : operands.findSome? (missing? s.geometry) with
  | some e =>
    refine iff_of_false (by simp) fun ⟨hHas, _⟩ => ?_
    have hNone := List.findSome?_eq_none_iff.mpr fun o ho => missing?_eq_none_iff.mpr (hHas o ho)
    exact absurd (hMissing.symm.trans hNone) (by simp)
  | none =>
    have hHas : ∀ o ∈ operands, s.geometry.Has o := fun o ho =>
      missing?_eq_none_iff.mp (List.findSome?_eq_none_iff.mp hMissing o ho)
    rw [and_iff_right hHas]
    cases s.constraints.add fresh kind operands with
    | error e => simp [Except.map]
    | ok result =>
      simp only [Except.map, Except.ok.injEq, Prod.mk.injEq]
      constructor
      · rintro ⟨rfl, rfl⟩
        exact ⟨result.1, rfl, rfl⟩
      · rintro ⟨cs, rfl, rfl⟩
        exact ⟨rfl, rfl⟩

/-- **A store grants a request exactly if the kind accepts the types of the operands, and a sketch
if the operands exist besides.**  What is refused leaves nothing but an error; what is granted is
appended piece by piece. -/
theorem requests_append_atoms (fresh : ConstraintId) (kind : ConstraintKind)
    (operands : List (Operand α)) :
    (∀ cs : Constraints α,
      kind.accepts (operands.map Operand.type) = true ∧
          (∃ cs' ids made, cs.add fresh kind operands = .ok (cs', ids) ∧
            Constraints.Grants cs fresh kind operands cs' ids made) ∨
        kind.accepts (operands.map Operand.type) = false ∧
          cs.add fresh kind operands =
            .error (.requirementMismatch kind (operands.map Operand.type))) ∧
    ∀ s : Sketch α,
      (kind.accepts (operands.map Operand.type) = true ∧ ∀ o ∈ operands, s.geometry.Has o) ∧
          (∃ s' ids made, s.addConstraint fresh kind operands = .ok (s', ids) ∧
            s'.geometry = s.geometry ∧
            Constraints.Grants s.constraints fresh kind operands s'.constraints ids made) ∨
        ¬ (kind.accepts (operands.map Operand.type) = true ∧ ∀ o ∈ operands, s.geometry.Has o) ∧
          ∃ e, s.addConstraint fresh kind operands = .error e := by
  have hStore : ∀ cs : Constraints α, kind.accepts (operands.map Operand.type) = true →
      ∃ cs' ids made, cs.add fresh kind operands = .ok (cs', ids) ∧
        Constraints.Grants cs fresh kind operands cs' ids made := by
    intro cs hAccepts
    obtain ⟨⟨cs', ids⟩, hAdd⟩ := (Constraints.exists_add_eq_ok_iff cs fresh).mpr hAccepts
    obtain ⟨made, hGrants⟩ := Constraints.grants_of_add hAdd
    exact ⟨cs', ids, made, hAdd, hGrants⟩
  refine ⟨fun cs => ?_, fun s => ?_⟩
  · cases hAccepts : kind.accepts (operands.map Operand.type) with
    | true => exact Or.inl ⟨rfl, hStore cs hAccepts⟩
    | false => exact Or.inr ⟨rfl, Constraints.add_of_not_accepts hAccepts cs fresh⟩
  · by_cases hGranted : kind.accepts (operands.map Operand.type) = true ∧
        ∀ o ∈ operands, s.geometry.Has o
    · obtain ⟨cs', ids, made, hAdd, hGrants⟩ := hStore s.constraints hGranted.1
      exact Or.inl ⟨hGranted, ⟨s.geometry, cs'⟩, ids, made,
        addConstraint_eq_ok_iff.mpr ⟨hGranted.2, cs', hAdd, rfl⟩, rfl, hGrants⟩
    · refine Or.inr ⟨hGranted, ?_⟩
      cases hAdd : s.addConstraint fresh kind operands with
      | error e => exact ⟨e, rfl⟩
      | ok result =>
        obtain ⟨hHas, cs, hStored, -⟩ := addConstraint_eq_ok_iff.mp hAdd
        have hAccepts := (Constraints.exists_add_eq_ok_iff _ _).mp ⟨_, hStored⟩
        exact absurd ⟨hAccepts, hHas⟩ hGranted

end Sketch

end PlaneSketch
