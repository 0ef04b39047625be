import PlaneSketch.Proofs.Linkage.Seeds

/-!
# Building again on what was written back

A group gets its value from a seed, from the last fixed point in it or from the dragged point.  On
what was written back the members of every class agree already, so that a build there reads off
what it finds.

* `coordinateAt?_scatter_congr`: **whatever is written back agrees within every class.**
* `value?_representative_scatter`: a build on what was written back finds it.
* `rebuild_scatter`: scattering and gathering are inverse across builds.
-/

namespace PlaneSketch

namespace Linkage

variable {α : Type} [Zero α] {g : Geometry α} {constraints : List (Constraint α)}
  {active : Option PointRef} {l : Linkage α}

/-- **Whatever is written back agrees within every class.** -/
theorem coordinateAt?_scatter_congr (h : build g constraints active = .ok l) (vars : Array α)
    {s t : Nat} (hSame : SameCoordinate g constraints s t) :
    (l.scatter g vars).coordinateAt? s = (l.scatter g vars).coordinateAt? t := by
  have hCount := (sameIds_scatter l g vars).pointCount
  by_cases hs : s < 2 * g.pointCount
  · have ht : t < 2 * g.pointCount := hSame.lt_iff.mp hs
    rw [coordinateAt?_scatter h (.refl g) hs, coordinateAt?_scatter h (.refl g) ht,
      source?_eq_of_sameCoordinate h hs hSame]
  · have ht : ¬ t < 2 * g.pointCount := fun ht => hs (hSame.lt_iff.mpr ht)
    rw [coordinateAt?_eq_none _ (hCount ▸ Nat.le_of_not_lt hs),
      coordinateAt?_eq_none _ (hCount ▸ Nat.le_of_not_lt ht)]

/-- **A build on what was written back finds it, whichever point is dragged then.** -/
theorem value?_representative_scatter (h : build g constraints active = .ok l) (vars : Array α)
    {active' : Option PointRef} {l' : Linkage α}
    (h' : build (l.scatter g vars) constraints active' = .ok l') {s : Nat}
    (hs : s < 2 * g.pointCount) :
    l'.slots.value? (l'.representative s) = (l.scatter g vars).coordinateAt? s := by
  have hIds := sameIds_scatter l g vars
  refine value?_representative_of_agree h' (fun s t hSame => ?_) (hIds.pointCount ▸ hs)
  rw [sameCoordinate_congr_ids hIds] at hSame
  exact coordinateAt?_scatter_congr h vars hSame

/-- Gathering takes up the vector that was scattered. -/
theorem gather_scatter (h : build g constraints active = .ok l) {vars : Array α}
    (hSize : vars.size = l.degreesOfFreedom) {active' : Option PointRef} {l' : Linkage α}
    (h' : build (l.scatter g vars) constraints active' = .ok l') :
    l'.gather (l.scatter g vars) = vars := by
  have hIds := sameIds_scatter l g vars
  have hLinks : l.slots.links = l'.slots.links := links_build_congr h hIds.symm h'
  have hFree : l'.freeCount = l.freeCount := (freeCount_congr_links hLinks).symm
  have hSize' : vars.size = l.freeCount + g.arcs.length := by
    rw [hSize, degreesOfFreedom, arcCount_of_build h]
  have hGathered : (l'.gather (l.scatter g vars)).size = vars.size := by
    rw [size_gather, hFree, hIds.length_arcs, hSize']
  refine Array.ext_getElem? fun j => ?_
  by_cases hj : j < l.freeCount
  · -- the index of a free slot, which represents a point slot that shows the variable
    obtain ⟨t, hBase', rfl⟩ := exists_freeBefore_eq (hFree ▸ hj)
    have hBase : l.slots.link? t = some .base := (Slots.link?_congr hLinks t).trans hBase'
    obtain ⟨s, hs, rfl⟩ := exists_representative_of_build h' hBase'
    rw [hIds.pointCount] at hs
    have hRep : l.representative s = l'.representative s :=
      Slots.representative_congr_links hLinks s
    have hShown : l'.slots.value? (l'.representative s) = (l.scatter g vars).coordinateAt? s :=
      value?_representative_scatter h vars h' hs
    have hLt : l'.freeBefore (l'.representative s) < vars.size := by omega
    rw [getElem?_gather _ hBase', hShown, coordinateAt?_scatter h (.refl g) hs,
      source?_of_base (hRep ▸ hBase), hRep, freeBefore_congr_links hLinks, Option.map_some,
      Source.value, Array.getElem?_eq_getElem hLt, Option.getD_some]
  · -- an offset
    have hIndex : j = l.freeCount + (j - l.freeCount) := by omega
    rw [← Array.getElem?_toList, ← Array.getElem?_toList, toList_gather,
      List.getElem?_append_right (by rw [List.length_map, length_filter_base]; omega),
      List.length_map, length_filter_base, hFree, offsets_scatter_of_size g hSize',
      List.getElem?_drop, ← hIndex]

/-- **Scattering and gathering are inverse across builds.**  Whatever vector is written back and
whichever point is dragged next, a build on the result links the slots as before, takes up the same
vector and writes the same geometry. -/
theorem rebuild_scatter (h : build g constraints active = .ok l) {vars : Array α}
    (hSize : vars.size = l.degreesOfFreedom) {active' : Option PointRef}
    (hActive : ∀ p, active' = some p → (g.pointIndex? p).isSome) :
    ∃ l', build (l.scatter g vars) constraints active' = .ok l' ∧
      l'.slots.links = l.slots.links ∧
      l'.gather (l.scatter g vars) = vars ∧
      l'.scatter (l.scatter g vars) vars = l.scatter g vars := by
  have hIds := sameIds_scatter l g vars
  obtain ⟨l', h'⟩ := exists_build_of_sameIds h hIds.symm hActive
  have hGather := gather_scatter h hSize h'
  have hCount := hIds.pointCount
  refine ⟨l', h', (links_build_congr h hIds.symm h').symm, hGather, ?_⟩
  refine eq_of_coordinateAt? (sameIds_scatter l' _ vars) (fun s hs => ?_) ?_
  · rw [(sameIds_scatter l' _ vars).pointCount] at hs
    have hRead := source?_gather h' (l.scatter g vars) hs
    rw [hGather] at hRead
    rw [coordinateAt?_scatter h' (.refl _) hs, hRead]
    exact value?_representative_scatter h vars h' (hCount ▸ hs)
  · have hSize' : vars.size = l'.freeCount + (l.scatter g vars).arcs.length := by
      rw [← size_gather, hGather]
    have hTaken : vars.toList.drop l'.freeCount = (l.scatter g vars).offsets := by
      conv_lhs => rw [← hGather, toList_gather]
      exact List.drop_left' (by rw [List.length_map, length_filter_base])
    rw [offsets_scatter_of_size _ hSize', hTaken]

end Linkage

end PlaneSketch
