import Mathlib.Data.List.NodupEquivFin
import PlaneSketch.Proofs.Geometry

/-!
# Canonical addresses

Listing the points, looking one up, reading it and writing it each walk through the segments and the
arcs in a way of their own.  Where no two entities have the same name all four go by one numbering,
so that a point and its index are worth the same.

* `Geometry.refs`: the names of all points, in canonical order.
* `Geometry.pointIndex?_eq_some_iff`: looking up a name is finding it in that list.
* `Geometry.checkedPointAt?_eq`, `Geometry.checkedSetPointAt?_eq`: no index of an arc goes below
  zero.
* `Geometry.points_remove`: a removal takes the two points of an entity out of the list.
* `Geometry.IsAddressed`, `Geometry.PointMoved`, `Geometry.OrderKept`: what the numbering is for,
  what moving a point changes, and what a removal keeps.
* `Geometry.canonical_addresses`: **distinct names make the canonical order a numbering of the
  points.**
-/

namespace PlaneSketch

/-- What is left of a list of pieces is the pieces of what is left. -/
theorem flatMap_filter_eq {β γ : Type} {p : β → Bool} {q : γ → Bool} {f : β → List γ}
    (h : ∀ b, ∀ c ∈ f b, q c = p b) (l : List β) :
    (l.filter p).flatMap f = (l.flatMap f).filter q := by
  induction l with
  | nil => rfl
  | cons b l ih =>
    rw [List.flatMap_cons, List.filter_append, ← ih, List.filter_cons]
    by_cases hb : p b = true
    · have hKept : (f b).filter q = f b :=
        List.filter_eq_self.mpr fun c hc => (h b c hc).trans hb
      rw [if_pos hb, List.flatMap_cons, hKept]
    · have hGone : (f b).filter q = [] :=
        List.filter_eq_nil_iff.mpr fun c hc => by rwa [h b c hc]
      rw [if_neg hb, hGone, List.nil_append]

/-- In a list without repetition an element is found at its only place. -/
theorem findIdx?_eq_some_iff_of_nodup {β : Type} [DecidableEq β] {l : List β} (h : l.Nodup)
    {b : β} {k : Nat} : l.findIdx? (· = b) = some k ↔ l[k]? = some b := by
  rw [List.findIdx?_eq_some_iff_getElem, List.getElem?_eq_some_iff]
  constructor
  · rintro ⟨hk, hb, -⟩
    exact ⟨hk, of_decide_eq_true hb⟩
  · rintro ⟨hk, hb⟩
    refine ⟨hk, decide_eq_true hb, fun j hj hEq => ?_⟩
    have hSame : j = k := h.getElem_inj_iff.mp ((of_decide_eq_true hEq).trans hb.symm)
    omega

namespace Geometry

variable {α : Type} {g g' : Geometry α} {r r' : PointRef} {i j i' j' : Nat} {v : Vec2 α}

/-! ## The names of all points -/

/-- The names of all points, in canonical order. -/
def refs (g : Geometry α) : List PointRef := g.ids.flatMap fun id => [.start id, .stop id]

theorem points_map_fst (g : Geometry α) : g.points.map (·.1) = g.refs := by
  simp only [points, refs, ids, segmentIds, arcIds, List.map_append, List.map_flatMap,
    List.flatMap_append, List.flatMap_map, List.map_cons, List.map_nil]

theorem getElem?_refs (g : Geometry α) (i : Nat) :
    g.refs[i]? = g.ids[i / 2]?.map fun id => if i % 2 = 0 then .start id else .stop id :=
  getElem?_flatMap_pair _ _ _ _

/-- The name at an index is made of the entity there and of the parity of the index. -/
theorem getElem?_refs_eq_some_iff :
    g.refs[i]? = some r ↔ g.ids[i / 2]? = some r.entity ∧ i % 2 = r.endpoint.offset := by
  rw [getElem?_refs, Option.map_eq_some_iff]
  obtain ⟨entity, endpoint⟩ := r
  have hMod := Nat.mod_two_eq_zero_or_one i
  constructor
  · rintro ⟨id, hId, hRef⟩
    rcases hMod with hi | hi
    · rw [if_pos hi] at hRef
      obtain ⟨rfl, rfl⟩ := PointRef.mk.inj hRef
      exact ⟨hId, hi⟩
    · rw [if_neg (by omega)] at hRef
      obtain ⟨rfl, rfl⟩ := PointRef.mk.inj hRef
      exact ⟨hId, hi⟩
  · rintro ⟨hId, hi⟩
    refine ⟨entity, hId, ?_⟩
    cases endpoint with
    | start => exact if_pos hi
    | stop =>
      have hOdd : i % 2 = 1 := hi
      exact if_neg (by omega)

/-- **Looking up a name is finding it in the list of all names.** -/
theorem pointIndex?_eq_some_iff (hIds : g.ids.Nodup) :
    g.pointIndex? r = some i ↔ g.refs[i]? = some r := by
  rw [pointIndex?_eq, Option.map_eq_some_iff, getElem?_refs_eq_some_iff]
  have hOffset := r.endpoint.offset_lt
  constructor
  · rintro ⟨k, hk, rfl⟩
    have hDiv : (2 * k + r.endpoint.offset) / 2 = k := by omega
    rw [hDiv]
    exact ⟨(findIdx?_eq_some_iff_of_nodup hIds).mp hk, by omega⟩
  · rintro ⟨hId, hi⟩
    exact ⟨i / 2, (findIdx?_eq_some_iff_of_nodup hIds).mpr hId, by omega⟩

theorem nodup_refs (hIds : g.ids.Nodup) : g.refs.Nodup := by
  rw [List.nodup_iff_getElem?_ne_getElem?]
  intro i j hij hj hEq
  have hAt : g.refs[j]? = some g.refs[j] := List.getElem?_eq_getElem hj
  have hFirst := (pointIndex?_eq_some_iff hIds).mpr (hEq.trans hAt)
  have hSecond := (pointIndex?_eq_some_iff hIds).mpr hAt
  have hSame := Option.some.inj (hFirst.symm.trans hSecond)
  omega

theorem mem_refs_iff : r ∈ g.refs ↔ r.entity ∈ g.ids := by
  rw [refs, List.mem_flatMap]
  constructor
  · rintro ⟨id, hId, hr⟩
    obtain rfl | rfl : r = .start id ∨ r = .stop id := by simpa using hr
    · exact hId
    · exact hId
  · intro hId
    obtain ⟨entity, endpoint⟩ := r
    refine ⟨entity, hId, ?_⟩
    cases endpoint with
    | start => exact List.mem_cons_self
    | stop => exact List.mem_cons_of_mem _ List.mem_cons_self

/-- **What is listed at an index is the name that has this index and the point read there.** -/
theorem getElem?_points_eq_some_iff (hIds : g.ids.Nodup) :
    g.points[i]? = some (r, v) ↔ g.pointIndex? r = some i ∧ g.pointAt? i = some v := by
  rw [pointIndex?_eq_some_iff hIds, ← points_map_fst, ← getElem?_points, List.getElem?_map]
  cases g.points[i]? with
  | none => simp
  | some e => simp [Prod.ext_iff]

theorem pointAt?_eq_none_iff (g : Geometry α) (i : Nat) :
    g.pointAt? i = none ↔ g.pointCount ≤ i := by
  rw [← not_lt, ← isSome_pointAt?, Option.not_isSome_iff_eq_none]

theorem setPointAt?_eq_none_iff (g : Geometry α) (i : Nat) (v : Vec2 α) :
    g.setPointAt? i v = none ↔ g.pointCount ≤ i := by
  rw [← not_lt, ← g.isSome_setPointAt? i v, Option.not_isSome_iff_eq_none]

/-! ## Indices of arcs -/

/-- A difference that there is only where it does not go below zero. -/
def difference? (m n : Nat) : Option Nat := if n ≤ m then some (m - n) else none

/-- `pointAt?` with the index of the arc computed by a difference that may not exist; then there is
no outcome at all. -/
def checkedPointAt? (g : Geometry α) (index : Nat) : Option (Option (Vec2 α)) :=
  match g.segments[index / 2]? with
  | some s => some (some (if index % 2 = 0 then s.figure.p1 else s.figure.p2))
  | none => (difference? (index / 2) g.segments.length).map fun k =>
      g.arcs[k]?.map fun a => if index % 2 = 0 then a.figure.p1 else a.figure.p2

/-- `setPointAt?` with the index of the arc computed in the same way. -/
def checkedSetPointAt? (g : Geometry α) (index : Nat) (v : Vec2 α) : Option (Option (Geometry α)) :=
  match g.segments[index / 2]? with
  | some _ => some (some { g with
      segments := g.segments.modify (index / 2) fun s =>
        { s with figure := if index % 2 = 0 then { s.figure with p1 := v }
                           else { s.figure with p2 := v } } })
  | none => (difference? (index / 2) g.segments.length).map fun k =>
      g.arcs[k]?.map fun _ => { g with
        arcs := g.arcs.modify k fun a =>
          { a with figure := if index % 2 = 0 then { a.figure with p1 := v }
                             else { a.figure with p2 := v } } }

theorem difference?_of_none {β : Type} {l : List β} {k : Nat} (h : l[k]? = none) :
    difference? k l.length = some (k - l.length) :=
  if_pos (List.getElem?_eq_none_iff.mp h)

theorem checkedPointAt?_eq (g : Geometry α) (i : Nat) :
    g.checkedPointAt? i = some (g.pointAt? i) := by
  rw [checkedPointAt?, pointAt?]
  cases h : g.segments[i / 2]? with
  | some s => rw [if_pos (List.getElem?_eq_some_iff.mp h).1, Option.map_some]
  | none =>
    rw [difference?_of_none h, if_neg (List.getElem?_eq_none_iff.mp h).not_gt, Option.map_some]

theorem checkedSetPointAt?_eq (g : Geometry α) (i : Nat) (v : Vec2 α) :
    g.checkedSetPointAt? i v = some (g.setPointAt? i v) := by
  rw [checkedSetPointAt?, setPointAt?]
  cases h : g.segments[i / 2]? with
  | some s => rw [if_pos (List.getElem?_eq_some_iff.mp h).1]
  | none =>
    rw [difference?_of_none h, Option.map_some, if_neg (List.getElem?_eq_none_iff.mp h).not_gt]
    cases hArc : g.arcs[i / 2 - g.segments.length]? with
    | some a => rw [if_pos (List.getElem?_eq_some_iff.mp hArc).1, Option.map_some]
    | none => rw [if_neg (List.getElem?_eq_none_iff.mp hArc).not_gt, Option.map_none]

/-! ## Moving a point -/

/-- What moving the point `r` to `v` does to a geometry: nothing else changes. -/
structure PointMoved (g : Geometry α) (r : PointRef) (v : Vec2 α) (g' : Geometry α) : Prop where
  point : g'.point? r = some v
  others : ∀ r', r' ≠ r → g'.point? r' = g.point? r'
  offsets : g'.offsets = g.offsets
  ids : g'.SameIds g
  indices : ∀ r', g'.pointIndex? r' = g.pointIndex? r'

theorem pointMoved_of_setPoint? (h : g.setPoint? r v = some g') : g.PointMoved r v g' := by
  obtain ⟨i, hi, hSet⟩ := Option.bind_eq_some_iff.mp h
  have hIds := sameIds_of_setPoint? h
  refine ⟨?_, fun r' hNe => point?_of_setPoint?_of_ne h hNe, offsets_of_setPointAt? hSet, hIds,
    hIds.pointIndex?⟩
  rw [point?, hIds.pointIndex?, hi]
  exact pointAt?_of_setPointAt? hSet

/-! ## Removing an entity -/

theorem ids_remove (g : Geometry α) (id : EntityId) :
    (g.remove id).ids = g.ids.filter (· ≠ id) := by
  simp only [ids, segmentIds, arcIds, remove, List.filter_append, List.filter_map]
  rfl

/-- **A removal takes the two points of an entity out of the list.** -/
theorem points_remove (g : Geometry α) (id : EntityId) :
    (g.remove id).points = g.points.filter (·.1.entity ≠ id) := by
  rw [points, points, List.filter_append]
  refine congrArg₂ (· ++ ·) (flatMap_filter_eq ?_ _) (flatMap_filter_eq ?_ _)
  · intro s e he
    obtain rfl | rfl : e = (.start s.id, s.figure.p1) ∨ e = (.stop s.id, s.figure.p2) := by
      simpa using he
    · rfl
    · rfl
  · intro a e he
    obtain rfl | rfl : e = (.start a.id, a.figure.p1) ∨ e = (.stop a.id, a.figure.p2) := by
      simpa using he
    · rfl
    · rfl

/-- A removal leaves the other points in the order of their indices. -/
structure OrderKept (g : Geometry α) (id : EntityId) (g' : Geometry α) : Prop where
  points : g'.points = g.points.filter (·.1.entity ≠ id)
  ids : g'.ids.Nodup
  /-- Every other point still has an index. -/
  addressed : ∀ r, r.entity ≠ id → ((g'.pointIndex? r).isSome ↔ (g.pointIndex? r).isSome)
  /-- What came first still does. -/
  indices : ∀ r r' i j i' j', g.pointIndex? r = some i → g.pointIndex? r' = some j →
    g'.pointIndex? r = some i' → g'.pointIndex? r' = some j' → (i' < j' ↔ i < j)

theorem nodup_ids_remove (hIds : g.ids.Nodup) (id : EntityId) : (g.remove id).ids.Nodup := by
  rw [ids_remove]
  exact hIds.filter _

theorem isSome_pointIndex?_remove {id : EntityId} (hr : r.entity ≠ id) :
    ((g.remove id).pointIndex? r).isSome ↔ (g.pointIndex? r).isSome := by
  rw [isSome_pointIndex?, isSome_pointIndex?, ids_remove, List.mem_filter, decide_eq_true hr]
  exact and_iff_left rfl

theorem pointIndex?_remove_lt_iff (hIds : g.ids.Nodup) {id : EntityId}
    (hi : g.pointIndex? r = some i) (hj : g.pointIndex? r' = some j)
    (hi' : (g.remove id).pointIndex? r = some i') (hj' : (g.remove id).pointIndex? r' = some j') :
    i' < j' ↔ i < j := by
  have hSublist : (g.remove id).refs.Sublist g.refs := by
    rw [← points_map_fst, ← points_map_fst, points_remove]
    exact List.filter_sublist.map _
  -- the places that are left, in order; an old index is the place of the new one among them
  obtain ⟨f, hf⟩ := List.sublist_iff_exists_orderEmbedding_getElem?_eq.mp hSublist
  have hAt : ∀ {r : PointRef} {i i' : Nat}, g.pointIndex? r = some i →
      (g.remove id).pointIndex? r = some i' → f i' = i := by
    intro r i i' hi hi'
    rw [pointIndex?_eq_some_iff (nodup_ids_remove hIds id), hf,
      ← pointIndex?_eq_some_iff hIds] at hi'
    exact Option.some.inj (hi'.symm.trans hi)
  rw [← hAt hi hi', ← hAt hj hj']
  exact f.lt_iff_lt.symm

theorem orderKept_remove (hIds : g.ids.Nodup) (id : EntityId) : g.OrderKept id (g.remove id) where
  points := g.points_remove id
  ids := nodup_ids_remove hIds id
  addressed _ hr := isSome_pointIndex?_remove hr
  indices _ _ _ _ _ _ hi hj hi' hj' := pointIndex?_remove_lt_iff hIds hi hj hi' hj'

/-! ## The numbering -/

/-- The canonical order is a numbering of the points: listing, looking up, reading and writing agree
on it. -/
structure IsAddressed (g : Geometry α) : Prop where
  length : g.points.length = g.pointCount
  nodup : (g.points.map (·.1)).Nodup
  getElem?_iff : ∀ i r v,
    g.points[i]? = some (r, v) ↔ g.pointIndex? r = some i ∧ g.pointAt? i = some v
  pointAt?_none : ∀ i, g.pointAt? i = none ↔ g.pointCount ≤ i
  setPointAt?_none : ∀ i v, g.setPointAt? i v = none ↔ g.pointCount ≤ i
  /-- Writing at an index changes what is read there, and nothing that is read elsewhere. -/
  written : ∀ i v g', g.setPointAt? i v = some g' →
    g'.pointAt? i = some v ∧ ∀ j, j ≠ i → g'.pointAt? j = g.pointAt? j
  /-- The index of an arc never goes below zero. -/
  checked : ∀ i v, g.checkedPointAt? i = some (g.pointAt? i) ∧
    g.checkedSetPointAt? i v = some (g.setPointAt? i v)
  /-- What is in the list can be moved, and nothing else. -/
  movable : ∀ r v, (g.setPoint? r v).isSome ↔ r ∈ g.points.map (·.1)

theorem isAddressed (hIds : g.ids.Nodup) : g.IsAddressed where
  length := g.length_points
  nodup := by
    rw [points_map_fst]
    exact nodup_refs hIds
  getElem?_iff _ _ _ := getElem?_points_eq_some_iff hIds
  pointAt?_none := g.pointAt?_eq_none_iff
  setPointAt?_none := g.setPointAt?_eq_none_iff
  written _ _ _ h := ⟨pointAt?_of_setPointAt? h, fun _ hj => pointAt?_of_setPointAt?_of_ne h hj⟩
  checked i v := ⟨g.checkedPointAt?_eq i, g.checkedSetPointAt?_eq i v⟩
  movable r v := by
    rw [points_map_fst, mem_refs_iff]
    exact g.isSome_setPoint? r v

/-- **Distinct names make the canonical order a numbering of the points.**  Moving a point leaves
the others and the numbering as they were, and removing an entity leaves the others in order. -/
theorem canonical_addresses (g : Geometry α) (hIds : g.ids.Nodup) :
    g.IsAddressed ∧ (∀ r v g', g.setPoint? r v = some g' → g.PointMoved r v g') ∧
      ∀ id, g.OrderKept id (g.remove id) :=
  ⟨isAddressed hIds, fun _ _ _ => pointMoved_of_setPoint?, orderKept_remove hIds⟩

/-- Two segments and an arc between them by name. -/
def mixed : Geometry Int :=
  ⟨[⟨⟨7⟩, ⟨0, 0⟩, ⟨1, 0⟩⟩, ⟨⟨3⟩, ⟨0, 1⟩, ⟨1, 1⟩⟩], [⟨⟨5⟩, ⟨2, 0⟩, ⟨4, 0⟩, 1⟩]⟩

theorem canonical_addresses_mixed :
    mixed.ids.Nodup ∧ mixed.IsAddressed ∧
      (mixed.pointIndex? (.start ⟨5⟩) = some 4 ∧ mixed.pointAt? 4 = some ⟨2, 0⟩ ∧
        mixed.points[4]? = some (.start ⟨5⟩, ⟨2, 0⟩)) ∧
      (∃ g', mixed.setPoint? (.stop ⟨7⟩) ⟨5, 5⟩ = some g' ∧
        mixed.PointMoved (.stop ⟨7⟩) ⟨5, 5⟩ g') ∧
      (mixed.remove ⟨7⟩).pointIndex? (.start ⟨5⟩) = some 2 ∧
      mixed.OrderKept ⟨7⟩ (mixed.remove ⟨7⟩) := by
  have hIds : mixed.ids.Nodup := by decide
  have hIndex : mixed.pointIndex? (.start ⟨5⟩) = some 4 := by decide
  obtain ⟨hAddressed, hMoved, hKept⟩ := canonical_addresses mixed hIds
  refine ⟨hIds, hAddressed, ⟨hIndex, rfl, ?_⟩, ⟨_, rfl, hMoved _ _ _ rfl⟩, by decide, hKept ⟨7⟩⟩
  exact (hAddressed.getElem?_iff 4 _ _).mpr ⟨hIndex, rfl⟩

end Geometry

end PlaneSketch
