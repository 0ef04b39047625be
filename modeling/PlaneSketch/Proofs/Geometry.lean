import Mathlib.Data.List.Basic
import PlaneSketch.Geometry

/-!
# The two views of a geometry

A geometry is read through two lists that run over its segments and then its arcs: the names
(`ids`) and the pairs of endpoints (`ends`).  The index of a point depends on the names alone and
the position of an index on the endpoints alone, so moving points changes no index.

* `pointIndex?_eq`, `pointAt?_eq`: look-up and reading through the views.
* `SameIds`: two geometries with the same names; what is said of indices and existence holds of
  both.
* `pointAt?_mapPoints`: `mapPoints` acts on every index by itself.
* `eq_of_sameIds`: the names, the points and the offsets are all that there is to a geometry, so
  that a point that is moved and put back was never moved (`setPoint?_setPoint?`).
* `contains_iff`: what it means for an operand to exist.
-/

namespace PlaneSketch

/-- Pairs laid end to end: place `n` holds a half of pair `n / 2`. -/
theorem getElem?_flatMap_pair {β γ : Type} (f g : β → γ) : ∀ (l : List β) (n : Nat),
    (l.flatMap fun a => [f a, g a])[n]? =
      l[n / 2]?.map fun a => if n % 2 = 0 then f a else g a := by
  intro l
  induction l with
  | nil => intro n; simp
  | cons a l ih =>
    intro n
    match n with
    | 0 => simp
    | 1 => simp
    | n + 2 =>
      have hDiv : (n + 2) / 2 = n / 2 + 1 := by omega
      have hMod : (n + 2) % 2 = n % 2 := by omega
      simp [hDiv, hMod, ih n]

theorem map_mapIdx {β γ δ : Type} (f : Nat → β → γ) (h : γ → δ) (l : List β) :
    (l.mapIdx f).map h = l.mapIdx fun i a => h (f i a) := by
  apply List.ext_getElem?
  intro i
  simp only [List.getElem?_map, List.getElem?_mapIdx, Option.map_map]
  rfl

theorem mapIdx_map {β γ δ : Type} (f : Nat → γ → δ) (h : β → γ) (l : List β) :
    (l.map h).mapIdx f = l.mapIdx fun i a => f i (h a) := by
  apply List.ext_getElem?
  intro i
  simp only [List.getElem?_map, List.getElem?_mapIdx, Option.map_map]
  rfl

theorem map_mapIdx_of_eq {β γ δ : Type} {f : Nat → β → γ} {h : γ → δ} {k : β → δ}
    (hf : ∀ i a, h (f i a) = k a) (l : List β) : (l.mapIdx f).map h = l.map k := by
  apply List.ext_getElem?
  intro i
  simp only [List.getElem?_map, List.getElem?_mapIdx, Option.map_map]
  congr 1
  funext a
  exact hf i a

/-- Two views that together tell all elements apart tell lists apart. -/
theorem eq_of_map_eq {β γ δ : Type} {f : β → γ} {h : β → δ}
    (hInj : ∀ a b, f a = f b → h a = h b → a = b) {l l' : List β} (hf : l.map f = l'.map f)
    (hh : l.map h = l'.map h) : l = l' := by
  have hBoth : (fun a => (f a, h a)).Injective := by
    intro a b hab
    obtain ⟨hfab, hhab⟩ := Prod.mk.inj hab
    exact hInj a b hfab hhab
  apply List.map_injective_iff.mpr hBoth
  rw [← List.zip_map', ← List.zip_map', hf, hh]

theorem map_modify {β γ : Type} {f : β → β} {h : β → γ} (hf : ∀ a, h (f a) = h a) (l : List β)
    (i : Nat) : (l.modify i f).map h = l.map h := by
  apply List.ext_getElem?
  intro j
  simp only [List.getElem?_map, List.getElem?_modify]
  cases l[j]? with
  | none => rfl
  | some a =>
    by_cases hj : i = j
    · simp [hj, hf]
    · simp [hj]

/-- Writing a half of one pair leaves its other half and every other pair as they were. -/
theorem getElem?_modify_half {β γ : Type} {first second : β → γ} {f : β → β} (i : Nat)
    {j k m : Nat} (hEven : i % 2 = 0 → ∀ a, second (f a) = second a)
    (hOdd : i % 2 ≠ 0 → ∀ a, first (f a) = first a) (l : List β) (h : k = m → i % 2 ≠ j % 2) :
    ((l.modify k f)[m]?.map fun a => if j % 2 = 0 then first a else second a) =
      l[m]?.map fun a => if j % 2 = 0 then first a else second a := by
  rw [List.getElem?_modify]
  cases l[m]? with
  | none => rfl
  | some a =>
    by_cases hSame : k = m
    · have hOther := h hSame
      by_cases hj : j % 2 = 0
      · simp [hSame, hj, hOdd (by omega)]
      · simp [hSame, hj, hEven (by omega)]
    · simp [hSame]

namespace Endpoint

theorem offset_lt (e : Endpoint) : e.offset < 2 := by cases e <;> decide

theorem offset_inj {e e' : Endpoint} (h : e.offset = e'.offset) : e = e' := by
  revert h
  cases e <;> cases e' <;> decide

end Endpoint

namespace Geometry

variable {α : Type}

/-! ## Names -/

def segmentIds (g : Geometry α) : List EntityId := g.segments.map (·.id)

def arcIds (g : Geometry α) : List EntityId := g.arcs.map (·.id)

/-- The names of all entities, in the canonical order of their points. -/
def ids (g : Geometry α) : List EntityId := g.segmentIds ++ g.arcIds

theorem segmentIndex?_eq (g : Geometry α) (id : EntityId) :
    g.segmentIndex? id = g.segmentIds.findIdx? (· = id) := by
  rw [segmentIndex?, segmentIds, List.findIdx?_map]
  rfl

theorem arcIndex?_eq (g : Geometry α) (id : EntityId) :
    g.arcIndex? id = g.arcIds.findIdx? (· = id) := by
  rw [arcIndex?, arcIds, List.findIdx?_map]
  rfl

theorem isSome_segmentIndex? (g : Geometry α) (id : EntityId) :
    (g.segmentIndex? id).isSome ↔ id ∈ g.segmentIds := by
  simp [segmentIndex?_eq, List.findIdx?_isSome]

theorem isSome_arcIndex? (g : Geometry α) (id : EntityId) :
    (g.arcIndex? id).isSome ↔ id ∈ g.arcIds := by
  simp [arcIndex?_eq, List.findIdx?_isSome]

theorem pointIndex?_eq (g : Geometry α) (p : PointRef) :
    g.pointIndex? p = (g.ids.findIdx? (· = p.entity)).map (2 * · + p.endpoint.offset) := by
  rw [pointIndex?, ids, List.findIdx?_append, ← segmentIndex?_eq, ← arcIndex?_eq]
  cases g.segmentIndex? p.entity with
  | some i => rfl
  | none =>
    cases g.arcIndex? p.entity with
    | none => rfl
    | some i => simp [segmentIds, Nat.add_comm]

theorem pointCount_eq (g : Geometry α) : g.pointCount = 2 * g.ids.length := by
  simp [pointCount, ids, segmentIds, arcIds]

theorem pointIndex?_lt {g : Geometry α} {p : PointRef} {i : Nat} (h : g.pointIndex? p = some i) :
    i < g.pointCount := by
  rw [pointIndex?_eq, Option.map_eq_some_iff] at h
  obtain ⟨k, hk, rfl⟩ := h
  have hLt : k < g.ids.length := (List.findIdx?_eq_some_iff_getElem.mp hk).1
  have hOffset := p.endpoint.offset_lt
  rw [pointCount_eq]
  omega

/-- Different points have different indices. -/
theorem pointIndex?_inj {g : Geometry α} {p q : PointRef} {i : Nat}
    (hp : g.pointIndex? p = some i) (hq : g.pointIndex? q = some i) : p = q := by
  rw [pointIndex?_eq, Option.map_eq_some_iff] at hp hq
  obtain ⟨k, hk, hkIndex⟩ := hp
  obtain ⟨m, hm, hmIndex⟩ := hq
  obtain ⟨hkLt, hkId, -⟩ := List.findIdx?_eq_some_iff_getElem.mp hk
  obtain ⟨hmLt, hmId, -⟩ := List.findIdx?_eq_some_iff_getElem.mp hm
  have hpOffset := p.endpoint.offset_lt
  have hqOffset := q.endpoint.offset_lt
  obtain rfl : k = m := by omega
  have hEntity : p.entity = q.entity :=
    (of_decide_eq_true hkId).symm.trans (of_decide_eq_true hmId)
  have hEndpoint : p.endpoint = q.endpoint := Endpoint.offset_inj (by omega)
  cases p
  cases q
  rw [PointRef.mk.injEq]
  exact ⟨hEntity, hEndpoint⟩

theorem isSome_pointIndex? (g : Geometry α) (p : PointRef) :
    (g.pointIndex? p).isSome ↔ p.entity ∈ g.ids := by
  rw [pointIndex?_eq, Option.isSome_map, List.findIdx?_isSome]
  simp

theorem isNone_entityType? (g : Geometry α) (id : EntityId) :
    (g.entityType? id).isNone ↔ id ∉ g.ids := by
  rw [entityType?, ids]
  have hSegment := g.isSome_segmentIndex? id
  have hArc := g.isSome_arcIndex? id
  split
  · simp_all
  · split <;> simp_all

/-! ## Operands that exist -/

/-- The operand names something of the geometry, with the right type.  Literals always do. -/
inductive Has (g : Geometry α) : Operand α → Prop
  | point {p : PointRef} : p.entity ∈ g.ids → Has g (.point p)
  | segment {id : EntityId} : id ∈ g.segmentIds → Has g (.segment id)
  | arc {id : EntityId} : id ∈ g.arcIds → Has g (.arc id)
  | value (v : α) : Has g (.value v)

theorem contains_iff (g : Geometry α) (o : Operand α) : g.contains o ↔ g.Has o := by
  constructor
  · intro h
    cases o with
    | point p =>
      refine .point ?_
      by_contra hp
      rw [contains, Option.isSome_iff_ne_none] at h
      exact h (Option.isNone_iff_eq_none.mp ((g.isNone_entityType? p.entity).mpr hp))
    | segment id => exact .segment ((g.isSome_segmentIndex? id).mp h)
    | arc id => exact .arc ((g.isSome_arcIndex? id).mp h)
    | value v => exact .value v
  · intro h
    cases h with
    | @point p hp =>
      rw [contains, Option.isSome_iff_ne_none]
      exact fun hNone => (g.isNone_entityType? p.entity).mp (Option.isNone_iff_eq_none.mpr hNone) hp
    | segment hId => exact (g.isSome_segmentIndex? _).mpr hId
    | arc hId => exact (g.isSome_arcIndex? _).mpr hId
    | value v => rfl

/-- The points of an operand that exists have an index. -/
theorem Has.isSome_pointIndex? {g : Geometry α} {o : Operand α} (h : g.Has o) {p : PointRef}
    (hp : p ∈ o.points) : (g.pointIndex? p).isSome := by
  rw [Geometry.isSome_pointIndex?]
  cases h with
  | point hId =>
    obtain rfl := List.mem_singleton.mp hp
    exact hId
  | segment hId =>
    obtain rfl | rfl : p = .start _ ∨ p = .stop _ := by simpa [Operand.points] using hp
    · exact List.mem_append_left _ hId
    · exact List.mem_append_left _ hId
  | arc hId =>
    obtain rfl | rfl : p = .start _ ∨ p = .stop _ := by simpa [Operand.points] using hp
    · exact List.mem_append_right _ hId
    · exact List.mem_append_right _ hId
  | value v => simp [Operand.points] at hp

/-- More entities, and every operand that existed still does. -/
theorem Has.mono {g g' : Geometry α} (hSegments : g.segmentIds ⊆ g'.segmentIds)
    (hArcs : g.arcIds ⊆ g'.arcIds) {o : Operand α} (h : g.Has o) : g'.Has o := by
  cases h with
  | point hId =>
    rcases List.mem_append.mp hId with hId | hId
    · exact .point (List.mem_append_left _ (hSegments hId))
    · exact .point (List.mem_append_right _ (hArcs hId))
  | segment hId => exact .segment (hSegments hId)
  | arc hId => exact .arc (hArcs hId)
  | value v => exact .value v

theorem Has.addSegment {g : Geometry α} {o : Operand α} (h : g.Has o) (id : EntityId)
    (segment : Segment α) : (g.addSegment id segment).Has o := by
  have hSegments : g.segmentIds ⊆ (g.addSegment id segment).segmentIds := by
    rw [segmentIds, segmentIds, Geometry.addSegment, List.map_append]
    exact List.subset_append_left _ _
  have hArcs : g.arcIds ⊆ (g.addSegment id segment).arcIds := List.Subset.refl _
  exact h.mono hSegments hArcs

theorem Has.addArc {g : Geometry α} {o : Operand α} (h : g.Has o) (id : EntityId) (arc : Arc α) :
    (g.addArc id arc).Has o := by
  have hArcs : g.arcIds ⊆ (g.addArc id arc).arcIds := by
    rw [arcIds, arcIds, Geometry.addArc, List.map_append]
    exact List.subset_append_left _ _
  have hSegments : g.segmentIds ⊆ (g.addArc id arc).segmentIds := List.Subset.refl _
  exact h.mono hSegments hArcs

/-! ## Equal names -/

/-- The same segments and the same arcs by name, in the same order. -/
structure SameIds (g g' : Geometry α) : Prop where
  segments : g.segmentIds = g'.segmentIds
  arcs : g.arcIds = g'.arcIds

namespace SameIds

variable {g g' g'' : Geometry α}

theorem trans (h : g.SameIds g') (h' : g'.SameIds g'') : g.SameIds g'' :=
  ⟨h.segments.trans h'.segments, h.arcs.trans h'.arcs⟩

theorem ids_eq (h : g.SameIds g') : g.ids = g'.ids := by rw [ids, ids, h.segments, h.arcs]

theorem refl (g : Geometry α) : g.SameIds g := ⟨rfl, rfl⟩

theorem symm (h : g.SameIds g') : g'.SameIds g := ⟨h.segments.symm, h.arcs.symm⟩

theorem segmentIndex? (h : g.SameIds g') (id : EntityId) :
    g.segmentIndex? id = g'.segmentIndex? id := by
  rw [segmentIndex?_eq, segmentIndex?_eq, h.segments]

theorem arcIndex? (h : g.SameIds g') (id : EntityId) : g.arcIndex? id = g'.arcIndex? id := by
  rw [arcIndex?_eq, arcIndex?_eq, h.arcs]

theorem pointIndex? (h : g.SameIds g') (p : PointRef) : g.pointIndex? p = g'.pointIndex? p := by
  rw [pointIndex?_eq, pointIndex?_eq, h.ids_eq]

theorem pointCount (h : g.SameIds g') : g.pointCount = g'.pointCount := by
  rw [pointCount_eq, pointCount_eq, h.ids_eq]

theorem length_arcs (h : g.SameIds g') : g.arcs.length = g'.arcs.length := by
  simpa [arcIds] using congrArg List.length h.arcs

theorem length_segments (h : g.SameIds g') : g.segments.length = g'.segments.length := by
  simpa [segmentIds] using congrArg List.length h.segments

theorem has_iff (h : g.SameIds g') (o : Operand α) : g.Has o ↔ g'.Has o :=
  ⟨Has.mono (fun _ hx => h.segments ▸ hx) (fun _ hx => h.arcs ▸ hx),
    Has.mono (fun _ hx => h.segments ▸ hx) (fun _ hx => h.arcs ▸ hx)⟩

end SameIds

/-! ## Positions -/

/-- The endpoints of all entities, in canonical order. -/
def ends (g : Geometry α) : List (Vec2 α × Vec2 α) :=
  g.segments.map (fun s => (s.figure.p1, s.figure.p2)) ++
    g.arcs.map (fun a => (a.figure.p1, a.figure.p2))

theorem pointAt?_eq (g : Geometry α) (i : Nat) :
    g.pointAt? i = g.ends[i / 2]?.map fun e => if i % 2 = 0 then e.1 else e.2 := by
  rw [pointAt?, ends]
  by_cases h : i / 2 < g.segments.length
  · rw [if_pos h, List.getElem?_append_left (by simpa using h), List.getElem?_map, Option.map_map]
    rfl
  · rw [if_neg h, List.getElem?_append_right (by simpa using h), List.getElem?_map, Option.map_map,
      List.length_map]
    rfl

theorem length_ends (g : Geometry α) : g.ends.length = g.ids.length := by
  simp [ends, ids, segmentIds, arcIds]

theorem isSome_pointAt? (g : Geometry α) (i : Nat) :
    (g.pointAt? i).isSome ↔ i < g.pointCount := by
  rw [pointAt?_eq, Option.isSome_map, pointCount_eq, ← length_ends, Option.isSome_iff_ne_none,
    ne_eq, List.getElem?_eq_none_iff]
  omega

/-- The canonical list of points is the endpoints in order. -/
theorem points_map_snd (g : Geometry α) :
    g.points.map (·.2) = g.ends.flatMap fun e => [e.1, e.2] := by
  simp only [points, ends, List.map_append, List.map_flatMap, List.flatMap_append,
    List.flatMap_map, List.map_cons, List.map_nil]

theorem getElem?_points (g : Geometry α) (i : Nat) :
    g.points[i]?.map (·.2) = g.pointAt? i := by
  rw [← List.getElem?_map, points_map_snd, getElem?_flatMap_pair, pointAt?_eq]

theorem length_points (g : Geometry α) : g.points.length = g.pointCount := by
  have h := congrArg List.length g.points_map_snd
  rw [List.length_map, List.length_flatMap] at h
  simpa [pointCount_eq, ← length_ends, Nat.mul_comm] using h

/-! ## Moving points -/

theorem sameIds_mapPoints (f : Nat → Vec2 α → Vec2 α) (g : Geometry α) :
    (g.mapPoints f).SameIds g := by
  refine ⟨map_mapIdx_of_eq ?_ _, map_mapIdx_of_eq ?_ _⟩
  · intro i s
    rfl
  · intro i a
    rfl

theorem sameIds_mapOffsets (f : Nat → α → α) (g : Geometry α) : (g.mapOffsets f).SameIds g := by
  refine ⟨rfl, map_mapIdx_of_eq ?_ _⟩
  intro i a
  rfl

theorem ends_mapPoints (f : Nat → Vec2 α → Vec2 α) (g : Geometry α) :
    (g.mapPoints f).ends = g.ends.mapIdx fun k e => (f (2 * k) e.1, f (2 * k + 1) e.2) := by
  rw [ends, ends, List.mapIdx_append, mapIdx_map, mapIdx_map, mapPoints, map_mapIdx, map_mapIdx,
    List.length_map]
  simp only [Nat.add_comm]

theorem ends_mapOffsets (f : Nat → α → α) (g : Geometry α) : (g.mapOffsets f).ends = g.ends := by
  refine congrArg (_ ++ ·) (map_mapIdx_of_eq ?_ _)
  intro i a
  rfl

/-- **Every index is moved by itself.** -/
theorem pointAt?_mapPoints (f : Nat → Vec2 α → Vec2 α) (g : Geometry α) (i : Nat) :
    (g.mapPoints f).pointAt? i = (g.pointAt? i).map (f i) := by
  rw [pointAt?_eq, pointAt?_eq, ends_mapPoints, List.getElem?_mapIdx, Option.map_map,
    Option.map_map]
  congr 1
  funext e
  rcases Nat.mod_two_eq_zero_or_one i with hi | hi
  · have hEven : 2 * (i / 2) = i := by omega
    simp [hi, hEven]
  · have hOdd : 2 * (i / 2) + 1 = i := by omega
    simp [hi, hOdd]

theorem pointAt?_mapOffsets (f : Nat → α → α) (g : Geometry α) (i : Nat) :
    (g.mapOffsets f).pointAt? i = g.pointAt? i := by
  rw [pointAt?_eq, pointAt?_eq, ends_mapOffsets]

theorem isSome_setPointAt? (g : Geometry α) (i : Nat) (v : Vec2 α) :
    (g.setPointAt? i v).isSome ↔ i < g.pointCount := by
  rw [setPointAt?, pointCount]
  split
  · simp only [Option.isSome_some, true_iff]
    omega
  · split
    · simp only [Option.isSome_some, true_iff]
      omega
    · simp only [Option.isSome_none, Bool.false_eq_true, false_iff]
      omega

theorem sameIds_of_setPointAt? {g g' : Geometry α} {i : Nat} {v : Vec2 α}
    (h : g.setPointAt? i v = some g') : g'.SameIds g := by
  rw [setPointAt?] at h
  split at h
  · obtain rfl := Option.some.inj h
    refine ⟨map_modify ?_ _ _, rfl⟩
    intro s
    rfl
  · split at h
    · obtain rfl := Option.some.inj h
      refine ⟨rfl, map_modify ?_ _ _⟩
      intro a
      rfl
    · exact absurd h (by simp)

theorem sameIds_of_setPoint? {g g' : Geometry α} {p : PointRef} {v : Vec2 α}
    (h : g.setPoint? p v = some g') : g'.SameIds g := by
  obtain ⟨i, -, hSet⟩ := Option.bind_eq_some_iff.mp h
  exact sameIds_of_setPointAt? hSet

/-- Moving one point moves no other one. -/
theorem pointAt?_of_setPointAt?_of_ne {g g' : Geometry α} {i j : Nat} {v : Vec2 α}
    (h : g.setPointAt? i v = some g') (hj : j ≠ i) : g'.pointAt? j = g.pointAt? j := by
  rw [setPointAt?] at h
  split at h
  · obtain rfl := Option.some.inj h
    simp only [pointAt?, List.length_modify]
    split
    · refine getElem?_modify_half i (fun hi s => ?_) (fun hi s => ?_) _ (by omega)
      · simp [hi]
      · simp [hi]
    · rfl
  · split at h
    · obtain rfl := Option.some.inj h
      simp only [pointAt?]
      split
      · rfl
      · refine getElem?_modify_half i (fun hi a => ?_) (fun hi a => ?_) _ (by omega)
        · simp [hi]
        · simp [hi]
    · exact absurd h (by simp)

theorem point?_of_setPoint?_of_ne {g g' : Geometry α} {p q : PointRef} {v : Vec2 α}
    (h : g.setPoint? p v = some g') (hq : q ≠ p) : g'.point? q = g.point? q := by
  obtain ⟨i, hi, hSet⟩ := Option.bind_eq_some_iff.mp h
  rw [point?, point?, (sameIds_of_setPoint? h).pointIndex? q]
  cases hj : g.pointIndex? q with
  | none => rfl
  | some j =>
    refine pointAt?_of_setPointAt?_of_ne hSet fun hEq => hq ?_
    exact pointIndex?_inj hj (hEq ▸ hi)

/-- A point exists, has an index and can be moved, or none of these. -/
theorem isSome_point? (g : Geometry α) (p : PointRef) :
    (g.point? p).isSome ↔ p.entity ∈ g.ids := by
  rw [← isSome_pointIndex?, point?]
  cases hi : g.pointIndex? p with
  | none => simp
  | some i => simpa using (g.isSome_pointAt? i).mpr (pointIndex?_lt hi)

theorem isSome_setPoint? (g : Geometry α) (p : PointRef) (v : Vec2 α) :
    (g.setPoint? p v).isSome ↔ p.entity ∈ g.ids := by
  rw [← isSome_pointIndex?, setPoint?]
  cases hi : g.pointIndex? p with
  | none => simp
  | some i => simpa using (g.isSome_setPointAt? i v).mpr (pointIndex?_lt hi)

theorem isSome_pointIndex?_iff (g : Geometry α) (p : PointRef) :
    (g.pointIndex? p).isSome ↔ (g.point? p).isSome :=
  (g.isSome_pointIndex? p).trans (g.isSome_point? p).symm

theorem isSome_point?_of_setPoint? {g g' : Geometry α} {p : PointRef} {v : Vec2 α}
    (h : g.setPoint? p v = some g') : (g.point? p).isSome :=
  (g.isSome_point? p).mpr ((g.isSome_setPoint? p v).mp (by simp [h]))

/-! ## What a geometry consists of -/

/-- The offsets of all arcs. -/
def offsets (g : Geometry α) : List α := g.arcs.map (·.figure.d)

theorem ends_congr {g g' : Geometry α} (h : ∀ i, g.pointAt? i = g'.pointAt? i) :
    g.ends = g'.ends := by
  apply List.ext_getElem?
  intro k
  have hFirst := h (2 * k)
  have hSecond := h (2 * k + 1)
  have hDiv : (2 * k + 1) / 2 = k := by omega
  simp only [pointAt?_eq, hDiv, Nat.mul_div_cancel_left k (show 0 < 2 by decide),
    Nat.mul_mod_right, Nat.mul_add_mod_self_left, if_true] at hFirst hSecond
  cases hk : g.ends[k]? with
  | none =>
    rw [hk, Option.map_none, eq_comm, Option.map_eq_none_iff] at hFirst
    rw [hFirst]
  | some e =>
    rw [hk, Option.map_some, eq_comm, Option.map_eq_some_iff] at hFirst
    obtain ⟨e', hk', hFst⟩ := hFirst
    rw [hk, hk', Option.map_some, Option.map_some, Option.some.injEq] at hSecond
    rw [hk', Option.some.injEq]
    exact Prod.ext hFst.symm hSecond

/-- **The names, the points and the offsets are all that there is to a geometry.** -/
theorem eq_of_sameIds {g g' : Geometry α} (hIds : g.SameIds g')
    (hPoints : ∀ i, g.pointAt? i = g'.pointAt? i) (hOffsets : g.offsets = g'.offsets) :
    g = g' := by
  obtain ⟨hSegments, hArcs⟩ :=
    List.append_inj (ends_congr hPoints) (by simpa using hIds.length_segments)
  refine congrArg₂ Geometry.mk (eq_of_map_eq ?_ hIds.segments hSegments)
    (eq_of_map_eq (f := fun a => (a.id, a.figure.d)) ?_ ?_ hArcs)
  · rintro ⟨id, p1, p2⟩ ⟨id', p1', p2'⟩ hId hEnds
    obtain ⟨rfl, rfl⟩ := Prod.mk.inj hEnds
    obtain rfl : id = id' := hId
    rfl
  · rintro ⟨id, p1, p2, d⟩ ⟨id', p1', p2', d'⟩ hId hEnds
    obtain ⟨rfl, rfl⟩ := Prod.mk.inj hEnds
    obtain ⟨rfl, rfl⟩ := Prod.mk.inj hId
    rfl
  · rw [← List.zip_map', ← List.zip_map']
    exact congrArg₂ List.zip hIds.arcs hOffsets

/-! ## Moving a point there and back -/

theorem pointAt?_of_setPointAt? {g g' : Geometry α} {i : Nat} {v : Vec2 α}
    (h : g.setPointAt? i v = some g') : g'.pointAt? i = some v := by
  rw [setPointAt?] at h
  split at h
  · next hSegment =>
    obtain rfl := Option.some.inj h
    rw [pointAt?, List.length_modify, if_pos hSegment, List.getElem?_modify_eq,
      List.getElem?_eq_getElem hSegment]
    simp only [Option.map_eq_map, Option.map_some, Option.some.injEq]
    split <;> rfl
  · next hSegment =>
    split at h
    · next hArc =>
      obtain rfl := Option.some.inj h
      rw [pointAt?, if_neg hSegment, List.getElem?_modify_eq, List.getElem?_eq_getElem hArc]
      simp only [Option.map_eq_map, Option.map_some, Option.some.injEq]
      split <;> rfl
    · exact absurd h (by simp)

theorem offsets_of_setPointAt? {g g' : Geometry α} {i : Nat} {v : Vec2 α}
    (h : g.setPointAt? i v = some g') : g'.offsets = g.offsets := by
  rw [setPointAt?] at h
  split at h
  · obtain rfl := Option.some.inj h
    rfl
  · split at h
    · obtain rfl := Option.some.inj h
      refine map_modify ?_ _ _
      intro a
      show (if _ then _ else _ : Arc α).d = _
      split <;> rfl
    · exact absurd h (by simp)

/-- **A point that is moved and put back was never moved.** -/
theorem setPoint?_setPoint? {g g' : Geometry α} {p : PointRef} {v old : Vec2 α}
    (h : g.setPoint? p v = some g') (hOld : g.point? p = some old) :
    g'.setPoint? p old = some g := by
  have hIds := sameIds_of_setPoint? h
  obtain ⟨i, hi, hSet⟩ := Option.bind_eq_some_iff.mp h
  have hAt : g.pointAt? i = some old := by
    rw [point?, hi] at hOld
    exact hOld
  have hi' : g'.pointIndex? p = some i := (hIds.pointIndex? p).trans hi
  obtain ⟨back, hBack⟩ := Option.isSome_iff_exists.mp
    ((g'.isSome_setPointAt? i old).mpr (pointIndex?_lt hi'))
  rw [setPoint?, hi', Option.bind_eq_bind, Option.bind_some, hBack, Option.some.injEq]
  refine eq_of_sameIds ((sameIds_of_setPointAt? hBack).trans hIds) (fun j => ?_) ?_
  · by_cases hj : j = i
    · rw [hj, pointAt?_of_setPointAt? hBack, hAt]
    · rw [pointAt?_of_setPointAt?_of_ne hBack hj, pointAt?_of_setPointAt?_of_ne hSet hj]
  · rw [offsets_of_setPointAt? hBack, offsets_of_setPointAt? hSet]

end Geometry

end PlaneSketch
