import PlaneSketch.Proofs.Linkage.Links

/-!
# The vector of variables

What `gather` puts where, and that `scatter` writes everything anew.

* `getElem?_gather`: a free slot finds its own value at its index.
* `source?_gather`: **what a slot reads from the gathered vector is the value of its
  representative.**
* `scatter_eq_of_sameIds`: **scattering forgets where the points were**, given a vector of the
  right length; `scatter_scatter`.
-/

namespace PlaneSketch

/-- What a filter keeps stands where as many kept elements stand before it. -/
theorem getElem?_filter_countP {β : Type} {p : β → Bool} {l : List β} {t : Nat} {x : β}
    (hx : l[t]? = some x) (hp : p x = true) : (l.filter p)[(l.take t).countP p]? = some x := by
  obtain ⟨ht, rfl⟩ := List.getElem?_eq_some_iff.mp hx
  have hSplit : l.filter p = (l.take t).filter p ++ (l.drop t).filter p := by
    rw [← List.filter_append, List.take_append_drop]
  rw [hSplit, List.countP_eq_length_filter, List.getElem?_append_right (Nat.le_refl _),
    Nat.sub_self, List.drop_eq_getElem_cons ht, List.filter_cons_of_pos hp]
  rfl

/-- Every place of a filtered list is the place of some element that is kept. -/
theorem exists_countP_take_eq {β : Type} {p : β → Bool} (l : List β) :
    ∀ {j : Nat}, j < l.countP p →
      ∃ t x, l[t]? = some x ∧ p x = true ∧ (l.take t).countP p = j := by
  induction l with
  | nil => intro j hj; simp at hj
  | cons y l ih =>
    intro j hj
    by_cases hy : p y = true
    · rw [List.countP_cons_of_pos hy] at hj
      cases j with
      | zero => exact ⟨0, y, rfl, hy, rfl⟩
      | succ j =>
        obtain ⟨t, x, hx, hp, hCount⟩ := ih (Nat.lt_of_succ_lt_succ hj)
        refine ⟨t + 1, x, hx, hp, ?_⟩
        rw [List.take_succ_cons, List.countP_cons_of_pos hy, hCount]
    · rw [List.countP_cons_of_neg hy] at hj
      obtain ⟨t, x, hx, hp, hCount⟩ := ih hj
      refine ⟨t + 1, x, hx, hp, ?_⟩
      rw [List.take_succ_cons, List.countP_cons_of_neg hy, hCount]

/-- Points with the same coordinates are the same. -/
theorem Geometry.pointAt?_congr {α : Type} {g g' : Geometry α} {i : Nat}
    (h : ∀ axis : Axis, g.coordinateAt? (axis.slot i) = g'.coordinateAt? (axis.slot i)) :
    g.pointAt? i = g'.pointAt? i := by
  have hx := h .x
  have hy := h .y
  simp only [coordinateAt?_slot] at hx hy
  cases hp : g.pointAt? i with
  | none =>
    rw [hp, Option.map_none, eq_comm, Option.map_eq_none_iff] at hx
    exact hx.symm
  | some p =>
    rw [hp, Option.map_some, eq_comm, Option.map_eq_some_iff] at hx
    obtain ⟨q, hq, hx⟩ := hx
    rw [hp, hq, Option.map_some, Option.map_some, Option.some.injEq] at hy
    rw [hq, Option.some.injEq]
    exact congrArg₂ Vec2.mk hx.symm hy

namespace Linkage

variable {α : Type} {g g' : Geometry α} {constraints : List (Constraint α)}
  {active : Option PointRef} {l : Linkage α}

/-! ## Coordinates -/

theorem coordinateAt?_eq_none (g : Geometry α) {s : Nat} (hs : 2 * g.pointCount ≤ s) :
    g.coordinateAt? s = none := by
  rw [Geometry.coordinateAt?, Slots.value?, List.getElem?_eq_none (by rwa [length_initial])]
  rfl

/-- Two geometries over the same names with the same coordinates and offsets are equal. -/
theorem eq_of_coordinateAt? (hIds : g.SameIds g')
    (h : ∀ s < 2 * g.pointCount, g.coordinateAt? s = g'.coordinateAt? s)
    (hOffsets : g.offsets = g'.offsets) : g = g' := by
  refine Geometry.eq_of_sameIds hIds (fun i => Geometry.pointAt?_congr fun axis => ?_) hOffsets
  by_cases hs : axis.slot i < 2 * g.pointCount
  · exact h _ hs
  · have hLe := Nat.le_of_not_lt hs
    rw [coordinateAt?_eq_none g hLe, coordinateAt?_eq_none g' (hIds.pointCount ▸ hLe)]

/-! ## Gathering -/

theorem length_filter_base (l : Linkage α) :
    (l.slots.filter (·.link = .base)).length = l.freeCount :=
  List.countP_eq_length_filter.symm

theorem toList_gather (l : Linkage α) (g : Geometry α) :
    (l.gather g).toList = (l.slots.filter (·.link = .base)).map (·.value) ++ g.offsets := rfl

theorem size_gather (l : Linkage α) (g : Geometry α) :
    (l.gather g).size = l.freeCount + g.arcs.length := by
  rw [← Array.length_toList, toList_gather, List.length_append, List.length_map,
    length_filter_base, Geometry.offsets, List.length_map]

theorem freeBefore_lt {t : Nat} (ht : l.slots.link? t = some .base) :
    l.freeBefore t < l.freeCount := by
  rw [Slots.link?, Option.map_eq_some_iff] at ht
  obtain ⟨slot, hSlot, hBase⟩ := ht
  have hAt := getElem?_filter_countP (p := fun slot : Slot α => slot.link = .base) hSlot
    (by simpa using hBase)
  rw [← length_filter_base]
  exact (List.getElem?_eq_some_iff.mp hAt).1

/-- **A free slot finds its own value at its index.** -/
theorem getElem?_gather (g : Geometry α) {t : Nat} (ht : l.slots.link? t = some .base) :
    (l.gather g)[l.freeBefore t]? = l.slots.value? t := by
  have hLt := freeBefore_lt ht
  rw [Slots.link?, Option.map_eq_some_iff] at ht
  obtain ⟨slot, hSlot, hBase⟩ := ht
  have hAt := getElem?_filter_countP (p := fun slot : Slot α => slot.link = .base) hSlot
    (by simpa using hBase)
  rw [← Array.getElem?_toList, toList_gather, List.getElem?_append_left
    (by rw [List.length_map, length_filter_base]; exact hLt), List.getElem?_map, Slots.value?,
    hSlot]
  exact congrArg (Option.map (·.value)) hAt

/-- Every variable but the offsets is the index of some free slot. -/
theorem exists_freeBefore_eq {j : Nat} (hj : j < l.freeCount) :
    ∃ t, l.slots.link? t = some .base ∧ l.freeBefore t = j := by
  obtain ⟨t, slot, hSlot, hBase, hCount⟩ := exists_countP_take_eq l.slots hj
  refine ⟨t, ?_, hCount⟩
  rw [Slots.link?, hSlot, Option.map_some, of_decide_eq_true hBase]

theorem source?_of_base {s : Nat} (h : l.slots.link? (l.representative s) = some .base) :
    l.source? s = some (.free (l.freeBefore (l.representative s))) := by
  rw [Slots.link?, Option.map_eq_some_iff] at h
  obtain ⟨slot, hSlot, hBase⟩ := h
  rw [source?, hSlot, Option.map_some, if_pos hBase]

section Built

variable [Zero α]

/-- **What a slot reads from the gathered vector is the value of its representative.** -/
theorem source?_gather (h : build g constraints active = .ok l) (g' : Geometry α) {s : Nat}
    (hs : s < 2 * g.pointCount) : (l.source? s).map (·.value (l.gather g')) =
      l.slots.value? (l.representative s) := by
  have hLinked := linked_of_build h
  obtain ⟨v, hv⟩ := Slots.value?_isSome (hLinked.representative_lt_length hs)
  rcases hLinked.holds_representative hs with hBase | hFixed
  · have hIndex := getElem?_gather g' hBase
    rw [source?_of_base hBase, Option.map_some, Source.value]
    exact (congrArg (fun x => some (x.getD 0)) (hIndex.trans hv)).trans hv.symm
  · rw [source?_of_fixed hFixed hv, Option.map_some]
    exact hv.symm

/-! ## Scattering -/

theorem offsets_scatter (l : Linkage α) (g : Geometry α) (vars : Array α) :
    (l.scatter g vars).offsets =
      g.offsets.mapIdx fun i old => vars[l.freeCount + i]?.getD old := by
  have hBefore : ∀ (f : Nat → α → α) (g : Geometry α),
      (g.mapOffsets f).offsets = g.offsets.mapIdx f := by
    intro f g
    rw [Geometry.offsets, Geometry.offsets, Geometry.mapOffsets, map_mapIdx, mapIdx_map]
  rw [scatter, place, hBefore]
  congr 1
  refine map_mapIdx_of_eq ?_ _
  intro i a
  rfl

/-- With a vector of the right length all offsets come from it. -/
theorem offsets_scatter_of_size (g : Geometry α) {vars : Array α}
    (hSize : vars.size = l.freeCount + g.arcs.length) :
    (l.scatter g vars).offsets = vars.toList.drop l.freeCount := by
  rw [offsets_scatter]
  apply List.ext_getElem?
  intro i
  have hVars : vars.toList[l.freeCount + i]? = vars[l.freeCount + i]? := Array.getElem?_toList
  rw [List.getElem?_mapIdx, List.getElem?_drop, hVars]
  have hLength : g.offsets.length = g.arcs.length := List.length_map _
  by_cases hi : i < g.arcs.length
  · have hVar : l.freeCount + i < vars.size := by omega
    rw [List.getElem?_eq_getElem (by omega), Array.getElem?_eq_getElem hVar, Option.map_some,
      Option.getD_some]
  · have hNone : g.offsets[i]? = none := List.getElem?_eq_none (by omega)
    rw [Array.getElem?_eq_none (by omega), hNone, Option.map_none]

/-- **Scattering forgets where the points were.** -/
theorem scatter_eq_of_sameIds (h : build g constraints active = .ok l) (hIds : g'.SameIds g)
    {vars : Array α} (hSize : vars.size = l.degreesOfFreedom) :
    l.scatter g' vars = l.scatter g vars := by
  have hSize' : vars.size = l.freeCount + g.arcs.length := by
    rw [hSize, degreesOfFreedom, arcCount_of_build h]
  have hBoth := (sameIds_scatter l g' vars).trans (hIds.trans (sameIds_scatter l g vars).symm)
  refine eq_of_coordinateAt? hBoth (fun s hs => ?_) ?_
  · have hs' : s < 2 * g.pointCount := by
      rwa [((sameIds_scatter l g' vars).trans hIds).pointCount] at hs
    rw [coordinateAt?_scatter h hIds hs', coordinateAt?_scatter h (.refl g) hs']
  · rw [offsets_scatter_of_size g' (hIds.length_arcs ▸ hSize'), offsets_scatter_of_size g hSize']

theorem size_gather_of_build (h : build g constraints active = .ok l) (hIds : g'.SameIds g) :
    (l.gather g').size = l.degreesOfFreedom := by
  rw [size_gather, degreesOfFreedom, arcCount_of_build h, hIds.length_arcs]

end Built

end Linkage

end PlaneSketch
