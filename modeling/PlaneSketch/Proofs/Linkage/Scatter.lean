import PlaneSketch.Proofs.Linkage.Classes

/-!
# What scattering does to the points

Whatever vector of variables is written back, the coordinates of a group come from one place.

* `coordinateAt?_scatter`, `coordinate?_scatter`: a coordinate is the value of the source that its
  slot reads.
* `SameGroup`: two points must agree along an axis, said of points and not of slots;
  `SameCoordinate.sameGroup` and `SameGroup.sameCoordinate` go from one to the other.
* `LastFixed`: the fixed point that decides where a group stands.
* `respects_scatter`: **tied points coincide, and a group with fixed points stands where the last
  of them was.**
-/

namespace PlaneSketch

namespace Geometry

variable {α : Type}

def coordinate? (g : Geometry α) (axis : Axis) (p : PointRef) : Option α :=
  (g.point? p).map axis.coordinate

theorem coordinate?_of_pointIndex? {g : Geometry α} {p : PointRef} {i : Nat}
    (h : g.pointIndex? p = some i) (axis : Axis) :
    g.coordinate? axis p = (g.pointAt? i).map axis.coordinate := by
  rw [coordinate?, point?, h]
  rfl

/-- The coordinate that the slot of a point stands for. -/
def coordinateAt? (g : Geometry α) (s : Nat) : Option α := (Slots.initial g).value? s

theorem coordinateAt?_slot (g : Geometry α) (axis : Axis) (i : Nat) :
    g.coordinateAt? (axis.slot i) = (g.pointAt? i).map axis.coordinate :=
  Linkage.value?_initial g axis i

end Geometry

theorem Axis.exists_slot (s : Nat) : ∃ (axis : Axis) (i : Nat), axis.slot i = s := by
  rcases Nat.mod_two_eq_zero_or_one s with hEven | hOdd
  · exact ⟨.x, s / 2, by rw [Axis.slot]; omega⟩
  · exact ⟨.y, s / 2, by rw [Axis.slot]; omega⟩

namespace Linkage

variable {α : Type} {g : Geometry α} {constraints : List (Constraint α)}
  {active : Option PointRef} {l : Linkage α}

theorem IsSlot.eq_right {axis : Axis} {p : PointRef} {s t : Nat} (hs : IsSlot g axis p s)
    (ht : IsSlot g axis p t) : s = t := by
  obtain ⟨i, hi, rfl⟩ := hs
  obtain ⟨j, hj, rfl⟩ := ht
  rw [Option.some.inj (hi.symm.trans hj)]

theorem IsSlot.eq_left {axis axis' : Axis} {p q : PointRef} {s : Nat} (hp : IsSlot g axis p s)
    (hq : IsSlot g axis' q s) : axis = axis' ∧ p = q := by
  obtain ⟨i, hi, rfl⟩ := hp
  obtain ⟨j, hj, hSlot⟩ := hq
  obtain ⟨rfl, rfl⟩ := Axis.slot_inj hSlot
  exact ⟨rfl, Geometry.pointIndex?_inj hi hj⟩

theorem lt_of_slot_lt {axis : Axis} {i : Nat} (h : axis.slot i < 2 * g.pointCount) :
    i < g.pointCount := by
  cases axis <;> simp only [Axis.slot] at h <;> omega

/-! ## Reading a slot -/

theorem source?_congr {s t : Nat} (h : l.representative s = l.representative t) :
    l.source? s = l.source? t := by rw [source?, source?, h]

theorem source?_of_fixed {s : Nat} {v : α}
    (hLink : l.slots.link? (l.representative s) = some .fixed)
    (hValue : l.slots.value? (l.representative s) = some v) :
    l.source? s = some (.constant v) := by
  rw [Slots.link?] at hLink
  rw [Slots.value?] at hValue
  rw [source?]
  cases hSlot : l.slots[l.representative s]? with
  | none => simp [hSlot] at hLink
  | some slot =>
    rw [hSlot, Option.map_some, Option.some.injEq] at hLink hValue
    simp [hLink, hValue]

section Built

variable [Zero α]

theorem isSome_source? (h : build g constraints active = .ok l) {s : Nat}
    (hs : s < 2 * g.pointCount) : (l.source? s).isSome := by
  have hAssemble := eq_assemble_of_build h
  have hHolds : l.slots.Holds (l.representative s) := by
    rw [hAssemble]
    exact linked_assemble.holds_representative hs
  rw [source?, Option.isSome_map, Option.isSome_iff_ne_none]
  intro hNone
  rcases hHolds with hLink | hLink <;> simp [Slots.link?, hNone] at hLink

theorem places_getElem? (h : build g constraints active = .ok l) {i : Nat}
    (hi : i < g.pointCount) : ∃ x y, l.source? (Axis.x.slot i) = some x ∧
      l.source? (Axis.y.slot i) = some y ∧ l.places[i]? = some (some (x, y)) := by
  have hSome : ∀ axis : Axis, (l.source? (axis.slot i)).isSome :=
    fun _ => isSome_source? h (slot_lt hi)
  obtain ⟨x, hx⟩ := Option.isSome_iff_exists.mp (hSome .x)
  obtain ⟨y, hy⟩ := Option.isSome_iff_exists.mp (hSome .y)
  have hCount : i < l.pointCount := by
    rw [eq_assemble_of_build h]
    exact hi
  refine ⟨x, y, hx, hy, ?_⟩
  rw [places, Array.getElem?_ofFn, dif_pos hCount]
  simp [hx, hy]

theorem sameIds_scatter (l : Linkage α) (g : Geometry α) (vars : Array α) :
    (l.scatter g vars).SameIds g :=
  (Geometry.sameIds_mapOffsets _ _).trans (Geometry.sameIds_mapPoints _ _)

/-- **What is written back to a slot is the value of the source that it reads**, wherever the
points were. -/
theorem coordinateAt?_scatter (h : build g constraints active = .ok l) {g' : Geometry α}
    (hIds : g'.SameIds g) {s : Nat} (hs : s < 2 * g.pointCount) (vars : Array α) :
    (l.scatter g' vars).coordinateAt? s = (l.source? s).map (·.value vars) := by
  obtain ⟨axis, i, rfl⟩ := Axis.exists_slot s
  have hi : i < g.pointCount := lt_of_slot_lt hs
  obtain ⟨old, hOld⟩ := Option.isSome_iff_exists.mp
    ((g'.isSome_pointAt? i).mpr (hIds.pointCount ▸ hi))
  obtain ⟨x, y, hx, hy, hPlace⟩ := places_getElem? h hi
  rw [Geometry.coordinateAt?_slot, scatter, place, Geometry.pointAt?_mapOffsets,
    Geometry.pointAt?_mapPoints, hOld]
  simp only [Option.map_some, hPlace]
  cases axis with
  | x => rw [hx]; rfl
  | y => rw [hy]; rfl

/-- A coordinate written back is the value of the source that its slot reads. -/
theorem coordinate?_scatter (h : build g constraints active = .ok l) {axis : Axis} {p : PointRef}
    {s : Nat} (hSlot : IsSlot g axis p s) (vars : Array α) :
    (l.scatter g vars).coordinate? axis p = (l.source? s).map (·.value vars) := by
  have hs := hSlot.lt
  obtain ⟨i, hi, rfl⟩ := hSlot
  rw [Geometry.coordinate?_of_pointIndex? (((sameIds_scatter l g vars).pointIndex? p).trans hi),
    ← Geometry.coordinateAt?_slot, coordinateAt?_scatter h (.refl g) hs]

end Built

/-! ## Groups of points -/

/-- The constraints make two points agree along an axis, through a chain of ties. -/
def SameGroup (constraints : List (Constraint α)) (axis : Axis) : PointRef → PointRef → Prop :=
  Relation.EqvGen fun p q => ∃ c ∈ constraints, c.kind.Ties axis ∧ p ∈ c.points ∧ q ∈ c.points

/-- The points that `fixed` constraints name, constraint by constraint. -/
def fixedPoints (constraints : List (Constraint α)) : List PointRef :=
  constraints.flatMap fun c => if c.kind = .fixed then c.points else []

/-- `q` is the last of the fixed points in the group of `p`. -/
def LastFixed (constraints : List (Constraint α)) (axis : Axis) (p q : PointRef) : Prop :=
  SameGroup constraints axis p q ∧ ∃ before after, fixedPoints constraints = before ++ q :: after ∧
    ∀ r ∈ after, ¬ SameGroup constraints axis p r

/-- A list in which something has a property has a last such element. -/
theorem exists_last {β : Type} {P : β → Prop} (l : List β) (h : ∃ x ∈ l, P x) :
    ∃ before x after, l = before ++ x :: after ∧ P x ∧ ∀ y ∈ after, ¬ P y := by
  induction l with
  | nil =>
    obtain ⟨x, hx, -⟩ := h
    exact absurd hx (List.not_mem_nil)
  | cons a l ih =>
    by_cases hl : ∃ x ∈ l, P x
    · obtain ⟨before, x, after, rfl, hx, hAfter⟩ := ih hl
      exact ⟨a :: before, x, after, rfl, hx, hAfter⟩
    · obtain ⟨x, hx, hPx⟩ := h
      rcases List.mem_cons.mp hx with rfl | hx
      · exact ⟨[], x, l, rfl, hPx, fun y hy hPy => hl ⟨y, hy, hPy⟩⟩
      · exact absurd ⟨x, hx, hPx⟩ hl

theorem exists_lastFixed {p : PointRef} (hp : p ∈ fixedPoints constraints) (axis : Axis) :
    ∃ q, LastFixed constraints axis p q := by
  obtain ⟨before, q, after, hSplit, hq, hAfter⟩ :=
    exists_last (P := SameGroup constraints axis p) (fixedPoints constraints) ⟨p, hp, .refl p⟩
  exact ⟨q, hq, before, after, hSplit, hAfter⟩

theorem LastFixed.mem {axis : Axis} {p q : PointRef} (h : LastFixed constraints axis p q) :
    q ∈ fixedPoints constraints := by
  obtain ⟨-, before, after, hSplit, -⟩ := h
  rw [hSplit]
  simp

theorem mem_fixedPoints_iff {p : PointRef} : p ∈ fixedPoints constraints ↔
    ∃ c ∈ constraints, c.kind = .fixed ∧ p ∈ c.points := by
  rw [fixedPoints, List.mem_flatMap]
  constructor
  · rintro ⟨c, hc, hp⟩
    split at hp
    · next hKind => exact ⟨c, hc, hKind, hp⟩
    · exact absurd hp List.not_mem_nil
  · rintro ⟨c, hc, hKind, hp⟩
    exact ⟨c, hc, by rwa [if_pos hKind]⟩

/-! ## Groups of points and classes of slots -/

/-- Slots in one class are slots of points in one group. -/
theorem sameGroup_of_sameCoordinate {s t : Nat} (h : SameCoordinate g constraints s t) :
    s = t ∨ ∃ axis p q, IsSlot g axis p s ∧ IsSlot g axis q t ∧ SameGroup constraints axis p q := by
  induction h with
  | rel s t hTied =>
    obtain ⟨c, hc, axis, hAxis, ⟨p, hp, hs⟩, ⟨q, hq, ht⟩⟩ := hTied
    exact Or.inr ⟨axis, p, q, hs, ht, .rel _ _ ⟨c, hc, hAxis, hp, hq⟩⟩
  | refl s => exact Or.inl rfl
  | symm s t _ ih =>
    rcases ih with rfl | ⟨axis, p, q, hs, ht, hGroup⟩
    · exact Or.inl rfl
    · exact Or.inr ⟨axis, q, p, ht, hs, .symm _ _ hGroup⟩
  | trans s t u _ _ ih ih' =>
    rcases ih with rfl | ⟨axis, p, q, hs, ht, hGroup⟩
    · exact ih'
    · rcases ih' with rfl | ⟨axis', q', r, ht', hu, hGroup'⟩
      · exact Or.inr ⟨axis, p, q, hs, ht, hGroup⟩
      · -- the slot in the middle belongs to one point only
        obtain ⟨rfl, rfl⟩ := ht.eq_left ht'
        exact Or.inr ⟨axis, p, r, hs, hu, .trans _ _ _ hGroup hGroup'⟩

theorem SameCoordinate.sameGroup {axis axis' : Axis} {p q : PointRef} {s t : Nat}
    (h : SameCoordinate g constraints s t) (hs : IsSlot g axis p s) (ht : IsSlot g axis' q t) :
    axis = axis' ∧ SameGroup constraints axis p q := by
  rcases sameGroup_of_sameCoordinate h with rfl | ⟨axis'', p', q', hs', ht', hGroup⟩
  · obtain ⟨rfl, rfl⟩ := hs.eq_left ht
    exact ⟨rfl, .refl p⟩
  · obtain ⟨rfl, rfl⟩ := hs.eq_left hs'
    obtain ⟨rfl, rfl⟩ := ht.eq_left ht'
    exact ⟨rfl, hGroup⟩

theorem exists_isSlot {c : Constraint α} (hLocated : c.Located g)
    (hKind : c.kind.tiesCoordinates = true ∨ c.kind = .fixed) {p : PointRef} (hp : p ∈ c.points)
    (axis : Axis) : ∃ s, IsSlot g axis p s := by
  obtain ⟨i, hi⟩ := Option.isSome_iff_exists.mp (hLocated hKind p hp)
  exact ⟨axis.slot i, i, hi, rfl⟩

theorem tiesCoordinates_of_ties {kind : ConstraintKind} {axis : Axis} (h : kind.Ties axis) :
    kind.tiesCoordinates = true := by
  cases h <;> rfl

/-- Points in one group have slots in one class. -/
theorem SameGroup.sameCoordinate (hLocated : ∀ c ∈ constraints, c.Located g) {axis : Axis}
    {p q : PointRef} (h : SameGroup constraints axis p q) :
    p = q ∨ ∃ s t, IsSlot g axis p s ∧ IsSlot g axis q t ∧ SameCoordinate g constraints s t := by
  induction h with
  | rel p q hTied =>
    obtain ⟨c, hc, hAxis, hp, hq⟩ := hTied
    have hKind := Or.inl (b := c.kind = .fixed) (tiesCoordinates_of_ties hAxis)
    obtain ⟨s, hs⟩ := exists_isSlot (hLocated c hc) hKind hp axis
    obtain ⟨t, ht⟩ := exists_isSlot (hLocated c hc) hKind hq axis
    exact Or.inr ⟨s, t, hs, ht, .rel _ _ ⟨c, hc, axis, hAxis, ⟨p, hp, hs⟩, ⟨q, hq, ht⟩⟩⟩
  | refl p => exact Or.inl rfl
  | symm p q _ ih =>
    rcases ih with rfl | ⟨s, t, hs, ht, hSame⟩
    · exact Or.inl rfl
    · exact Or.inr ⟨t, s, ht, hs, .symm _ _ hSame⟩
  | trans p q r _ _ ih ih' =>
    rcases ih with rfl | ⟨s, t, hs, ht, hSame⟩
    · exact ih'
    · rcases ih' with rfl | ⟨t', u, ht', hu, hSame'⟩
      · exact Or.inr ⟨s, t, hs, ht, hSame⟩
      · obtain rfl := ht.eq_right ht'
        exact Or.inr ⟨s, u, hs, hu, .trans _ _ _ hSame hSame'⟩

/-- The slots of some points, both of each, for those that exist. -/
def slotsOf (g : Geometry α) (points : List PointRef) : List Nat :=
  points.flatMap fun p => bothSlots (g.pointIndex? p).toList

theorem mem_slotsOf_iff {points : List PointRef} {s : Nat} :
    s ∈ slotsOf g points ↔ ∃ p ∈ points, ∃ axis, IsSlot g axis p s := by
  simp only [slotsOf, List.mem_flatMap, mem_bothSlots_iff, List.mem_map, Option.mem_toList]
  exact Iff.rfl

theorem slotsOf_append_cons (before after : List PointRef) {q : PointRef} {i : Nat}
    (hi : g.pointIndex? q = some i) : slotsOf g (before ++ q :: after) =
      slotsOf g before ++ Axis.x.slot i :: Axis.y.slot i :: slotsOf g after := by
  rw [slotsOf, List.flatMap_append, List.flatMap_cons, hi]
  rfl

theorem bothSlots_filterMap (g : Geometry α) (points : List PointRef) :
    bothSlots (points.filterMap g.pointIndex?) = slotsOf g points := by
  induction points with
  | nil => rfl
  | cons p points ih =>
    rw [slotsOf, List.flatMap_cons, ← slotsOf, ← ih]
    cases hp : g.pointIndex? p with
    | none => rw [List.filterMap_cons_none hp]; rfl
    | some i => rw [List.filterMap_cons_some hp]; rfl

theorem pins_eq_slotsOf (g : Geometry α) (constraints : List (Constraint α)) :
    pins g constraints = slotsOf g (fixedPoints constraints) := by
  rw [pins, fixedPoints, slotsOf, List.flatMap_assoc]
  congr 1
  funext c
  rw [Constraint.pins, Constraint.indices, bothSlots_filterMap]
  split
  · rfl
  · rfl

/-- Among the pinned slots, those after the one of the last fixed point are in other classes. -/
theorem exists_pins_split {axis : Axis} {p q : PointRef} {t : Nat}
    (hLast : LastFixed constraints axis p q) (ht : IsSlot g axis q t) :
    ∃ before after, pins g constraints = before ++ t :: after ∧
      ∀ u ∈ after, ¬ SameCoordinate g constraints u t := by
  obtain ⟨hGroup, before, after, hSplit, hAfter⟩ := hLast
  obtain ⟨i, hi, rfl⟩ := ht
  have hSlot : IsSlot g axis q (axis.slot i) := ⟨i, hi, rfl⟩
  have hLater : ∀ u ∈ slotsOf g after, ¬ SameCoordinate g constraints u (axis.slot i) := by
    intro u hu hSame
    obtain ⟨r, hr, axis', hSlot'⟩ := mem_slotsOf_iff.mp hu
    obtain ⟨rfl, hSameGroup⟩ := hSame.sameGroup hSlot' hSlot
    exact hAfter r hr (.trans _ _ _ hGroup (.symm _ _ hSameGroup))
  have hPins : pins g constraints =
      slotsOf g before ++ Axis.x.slot i :: Axis.y.slot i :: slotsOf g after := by
    rw [pins_eq_slotsOf, hSplit, slotsOf_append_cons before after hi]
  cases axis with
  | x =>
    refine ⟨_, _, hPins, fun u hu => ?_⟩
    rcases List.mem_cons.mp hu with rfl | hu
    · -- the other axis of the same point
      intro hSame
      exact absurd (hSame.sameGroup ⟨i, hi, rfl⟩ hSlot).1 (by simp)
    · exact hLater u hu
  | y =>
    rw [List.append_cons] at hPins
    exact ⟨_, _, hPins, hLater⟩

/-! ## The constraints hold -/

/-- What tying and fixing promise of the geometry after a solve, given that before it. -/
structure Respects (constraints : List (Constraint α)) (before after : Geometry α) : Prop where
  /-- The points that a constraint ties have one and the same coordinate. -/
  agree : ∀ c ∈ constraints, ∀ axis, c.kind.Ties axis →
    ∃ v, ∀ p ∈ c.points, after.coordinate? axis p = some v
  /-- A fixed point stands where the last fixed point of its group was. -/
  fixed : ∀ p ∈ fixedPoints constraints, ∀ axis, ∃ q, LastFixed constraints axis p q ∧
    ∃ v, before.coordinate? axis q = some v ∧ after.coordinate? axis p = some v
  /-- A fixed point stays where it was if the fixed points of its group were there too. -/
  still : ∀ p ∈ fixedPoints constraints, ∀ axis,
    (∀ q ∈ fixedPoints constraints, SameGroup constraints axis p q →
      before.coordinate? axis q = before.coordinate? axis p) →
    after.coordinate? axis p = before.coordinate? axis p

section Built

variable [Zero α]

theorem source?_eq_of_sameCoordinate (h : build g constraints active = .ok l) {s t : Nat}
    (hs : s < 2 * g.pointCount) (hSame : SameCoordinate g constraints s t) :
    l.source? s = l.source? t :=
  source?_congr ((representative_eq_iff h hs (hSame.lt_iff.mp hs)).mpr hSame)

/-- The class of a fixed point reads the start value of the last fixed point in it. -/
theorem source?_lastFixed (h : build g constraints active = .ok l) {axis : Axis} {p q : PointRef}
    {t : Nat} (hLast : LastFixed constraints axis p q) (ht : IsSlot g axis q t) {v : α}
    (hv : g.coordinate? axis q = some v) : l.source? t = some (.constant v) := by
  obtain ⟨before, after, hPins, hAfter⟩ := exists_pins_split hLast ht
  have hMem : t ∈ pins g constraints := by rw [hPins]; simp
  have hValue : l.slots.value? (l.representative t) = some v := by
    rw [eq_assemble_of_build h, value?_representative_last hPins
      (by rwa [grouped_eq_sameCoordinate])]
    obtain ⟨i, hi, rfl⟩ := ht
    rw [value?_initial, ← Geometry.coordinate?_of_pointIndex? hi, hv]
  exact source?_of_fixed
    (link?_representative_of_held h ht.lt (.refl _) (mem_pins_iff.mp hMem)) hValue

/-- Points in one group are written back with one coordinate. -/
theorem coordinate?_scatter_congr (h : build g constraints active = .ok l) {axis : Axis}
    {p q : PointRef} (hGroup : SameGroup constraints axis p q) (vars : Array α) :
    (l.scatter g vars).coordinate? axis p = (l.scatter g vars).coordinate? axis q := by
  have hLocated := ((build_eq_ok_iff constraints active l).mp h).2.1
  rcases hGroup.sameCoordinate hLocated with rfl | ⟨s, t, hs, ht, hSame⟩
  · rfl
  · rw [coordinate?_scatter h hs, coordinate?_scatter h ht,
      source?_eq_of_sameCoordinate h hs.lt hSame]

/-- **Tied points coincide and fixed points stand where the last of their group was, whatever
the variables are.** -/
theorem respects_scatter (h : build g constraints active = .ok l) (vars : Array α) :
    Respects constraints g (l.scatter g vars) := by
  have hLocated := ((build_eq_ok_iff constraints active l).mp h).2.1
  have hFixed : ∀ p ∈ fixedPoints constraints, ∀ axis, ∃ q, LastFixed constraints axis p q ∧
      ∃ v, g.coordinate? axis q = some v ∧ (l.scatter g vars).coordinate? axis p = some v := by
    intro p hp axis
    obtain ⟨q, hLast⟩ := exists_lastFixed hp axis
    obtain ⟨c, hc, hKind, hq⟩ := mem_fixedPoints_iff.mp hLast.mem
    obtain ⟨t, ht⟩ := exists_isSlot (hLocated c hc) (Or.inr hKind) hq axis
    obtain ⟨i, hi, -⟩ := ht
    obtain ⟨v, hv⟩ := Option.isSome_iff_exists.mp
      ((g.isSome_pointAt? i).mpr (Geometry.pointIndex?_lt hi))
    have hCoordinate : g.coordinate? axis q = some (axis.coordinate v) := by
      rw [Geometry.coordinate?_of_pointIndex? hi, hv]
      rfl
    refine ⟨q, hLast, axis.coordinate v, hCoordinate, ?_⟩
    rw [coordinate?_scatter_congr h hLast.1, coordinate?_scatter h ⟨i, hi, rfl⟩,
      source?_lastFixed h hLast ⟨i, hi, rfl⟩ hCoordinate]
    rfl
  refine ⟨fun c hc axis hAxis => ?_, hFixed, fun p hp axis hSame => ?_⟩
  · cases hPoints : c.points with
    | nil => exact ⟨0, fun p hp => absurd hp List.not_mem_nil⟩
    | cons p rest =>
      have hp : p ∈ c.points := by rw [hPoints]; simp
      obtain ⟨s, hs⟩ :=
        exists_isSlot (hLocated c hc) (Or.inl (tiesCoordinates_of_ties hAxis)) hp axis
      obtain ⟨source, hSource⟩ := Option.isSome_iff_exists.mp (isSome_source? h hs.lt)
      refine ⟨source.value vars, fun q hq => ?_⟩
      have hGroup : SameGroup constraints axis q p :=
        .rel _ _ ⟨c, hc, hAxis, by rwa [hPoints], hp⟩
      rw [coordinate?_scatter_congr h hGroup, coordinate?_scatter h hs, hSource]
      rfl
  · obtain ⟨q, hLast, v, hBefore, hAfter⟩ := hFixed p hp axis
    rw [hAfter, ← hBefore]
    exact hSame q hLast.mem hLast.1

end Built

end Linkage

end PlaneSketch
