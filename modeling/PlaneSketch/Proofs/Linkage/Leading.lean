import PlaneSketch.Proofs.Linkage.RoundTrip

/-!
# Where the dragged point stands

The dragged point lends its coordinates to its groups after these were tied and pinned.  A group
that is variable then starts from where the point was dropped.

* `Slots.value?_foldl_lead_last`: the last slot of a variable group that leads gives the group its
  value.
* `value?_representative_of_active`: **the groups of the dragged point start from its own
  coordinates**, unless they are constant.
* `Linkage.substituted`: the geometry before any variable has changed.
* `coordinate?_substituted`: the dragged point stands there where it was dropped, along every axis
  along which no fixed point is in its group.
-/

namespace PlaneSketch

namespace Slots

variable {α : Type} {slots : Slots α} {n : Nat}

theorem value?_foldl_lead_of_apart {t : Nat} (us : List Nat) :
    ∀ {slots : Slots α}, (∀ u ∈ us, slots.representative u ≠ t) →
      (us.foldl lead slots).value? t = slots.value? t := by
  induction us with
  | nil => intro slots _; rfl
  | cons u us ih =>
    intro slots hApart
    obtain ⟨hHere, hApart⟩ := List.forall_mem_cons.mp hApart
    rw [List.foldl_cons, ih ?_, value?_lead_of_not fun h => hHere h.1.symm]
    intro v hv
    rw [representative_lead]
    exact hApart v hv

/-- **The last slot of a variable group that leads gives the group its value.** -/
theorem value?_foldl_lead_last (h : Linked n slots) {before after : List Nat} {u : Nat}
    (hUs : ∀ v ∈ before ++ u :: after, v < n)
    (hLast : ∀ v ∈ after, slots.representative v ≠ slots.representative u)
    (hBase : slots.link? (slots.representative u) = some .base) :
    ((before ++ u :: after).foldl lead slots).value? (slots.representative u) =
      slots.value? u := by
  obtain ⟨hBefore, hRest⟩ := List.forall_mem_append.mp hUs
  obtain ⟨hu, -⟩ := List.forall_mem_cons.mp hRest
  obtain ⟨-, hLink, -⟩ := foldl_lead_kept before slots
  have hRep : ∀ s, (before.foldl lead slots).representative s = slots.representative s :=
    fun s => representative_congr (hLink s)
  obtain ⟨v, hv⟩ := exists_value? h hu
  have hOwn : (before.foldl lead slots).value? u = some v :=
    (value?_foldl_lead_of_lt before h hBefore hu).trans hv
  rw [List.foldl_append, List.foldl_cons, value?_foldl_lead_of_apart after ?_, value?_lead hOwn,
    hRep, hLink, if_pos ⟨rfl, hBase⟩, hv]
  intro w hw
  rw [representative_lead, hRep]
  exact hLast w hw

end Slots

namespace Linkage

variable {α : Type} [Zero α] {g : Geometry α} {constraints : List (Constraint α)}
  {active : Option PointRef} {l : Linkage α}

/-- Of the two slots of a point, those that follow one of them are along the other axis. -/
theorem exists_bothSlots_split (axis : Axis) (i : Nat) :
    ∃ before after, bothSlots [i] = before ++ axis.slot i :: after ∧
      ∀ v ∈ after, ∃ axis' ≠ axis, v = axis'.slot i := by
  cases axis with
  | x => exact ⟨[], [Axis.y.slot i], rfl, fun v hv => ⟨.y, by simp, List.mem_singleton.mp hv⟩⟩
  | y => exact ⟨[Axis.x.slot i], [], rfl, fun v hv => absurd hv List.not_mem_nil⟩

/-- **The groups of the dragged point start from its own coordinates**, unless they are constant. -/
theorem value?_representative_of_active {p : PointRef}
    (h : build g constraints (some p) = .ok l) {i : Nat} (hi : g.pointIndex? p = some i)
    {axis : Axis} (hBase : l.slots.link? (l.representative (axis.slot i)) = some .base) :
    l.slots.value? (l.representative (axis.slot i)) = g.coordinateAt? (axis.slot i) := by
  have hLt : i < g.pointCount := Geometry.pointIndex?_lt hi
  have hs : axis.slot i < 2 * g.pointCount := slot_lt hLt
  obtain ⟨before, after, hSplit, hAfter⟩ := exists_bothSlots_split axis i
  have hOther : ∀ v ∈ after, (settled g constraints (some i)).representative v ≠
      (settled g constraints (some i)).representative (axis.slot i) := by
    intro v hv hEq
    obtain ⟨axis', hNe, rfl⟩ := hAfter v hv
    have hs' : axis'.slot i < 2 * g.pointCount := slot_lt hLt
    rw [representative_settled, representative_settled, ← representative_assemble hs',
      ← representative_assemble hs, representative_assemble_eq_iff _ hs' hs,
      grouped_eq_sameCoordinate] at hEq
    exact hNe (hEq.sameGroup ⟨i, hi, rfl⟩ ⟨i, hi, rfl⟩).1
  have hAssemble := eq_assemble_of_build h
  rw [Option.bind_some, hi] at hAssemble
  rw [hAssemble] at hBase ⊢
  rw [link?_representative_eq_settled hs] at hBase
  have hUs : ∀ v ∈ before ++ axis.slot i :: after, v < 2 * g.pointCount :=
    hSplit ▸ bothSlots_lt fun p hp => (List.mem_singleton.mp hp).symm ▸ hLt
  have hLed := Slots.value?_foldl_lead_last linked_settled hUs hOther hBase
  rw [representative_assemble hs, ← representative_settled, assemble, Slots.value?_markOrphans,
    Option.toList_some, hSplit, hLed, value?_settled hs]

/-- A variable that the dragged point reads starts from the point's own coordinate. -/
theorem getElem?_gather_of_active {p : PointRef} (h : build g constraints (some p) = .ok l)
    {i : Nat} (hi : g.pointIndex? p = some i) {axis : Axis} {index : Nat}
    (hSource : l.source? (axis.slot i) = some (.free index)) :
    (l.gather g)[index]? = g.coordinateAt? (axis.slot i) := by
  have hLinked := linked_of_build h
  have hs : axis.slot i < 2 * g.pointCount := slot_lt (Geometry.pointIndex?_lt hi)
  rcases hLinked.holds_representative hs with hBase | hFixed
  · rw [source?_of_base hBase, Option.some.injEq, Source.free.injEq] at hSource
    rw [← hSource]
    exact (getElem?_gather g hBase).trans (value?_representative_of_active h hi hBase)
  · obtain ⟨v, hv⟩ := Slots.value?_isSome (hLinked.representative_lt_length hs)
    rw [source?_of_fixed hFixed hv] at hSource
    exact absurd hSource (by simp)

/-- The geometry with the coordinates of every group put in place, before any variable has
changed. -/
def substituted (l : Linkage α) (g : Geometry α) : Geometry α := l.scatter g (l.gather g)

/-- Along an axis along which no fixed point is in its group, a point is variable. -/
theorem link?_representative_of_free (h : build g constraints active = .ok l) {axis : Axis}
    {p : PointRef} {s : Nat} (hs : IsSlot g axis p s)
    (hFree : ∀ q ∈ fixedPoints constraints, ¬ SameGroup constraints axis p q) :
    l.slots.link? (l.representative s) = some .base := by
  refine link?_representative_of_not_held h hs.lt fun t hSame hHeld => ?_
  obtain ⟨c, hc, hKind, q, hq, axis', ht⟩ := hHeld
  obtain ⟨rfl, hGroup⟩ := hSame.sameGroup hs ht
  exact hFree q (mem_fixedPoints_iff.mpr ⟨c, hc, hKind, hq⟩) hGroup

/-- **The dragged point stands where it was dropped**, along every axis along which no fixed point
is in its group. -/
theorem coordinate?_substituted {p : PointRef} (h : build g constraints (some p) = .ok l)
    {axis : Axis} (hFree : ∀ q ∈ fixedPoints constraints, ¬ SameGroup constraints axis p q) :
    (l.substituted g).coordinate? axis p = g.coordinate? axis p := by
  obtain ⟨i, hi⟩ := Option.isSome_iff_exists.mp (((build_eq_ok_iff _ _ l).mp h).1 p rfl)
  have hSlot : IsSlot g axis p (axis.slot i) := ⟨i, hi, rfl⟩
  rw [substituted, coordinate?_scatter h hSlot, source?_gather h g hSlot.lt,
    value?_representative_of_active h hi (link?_representative_of_free h hSlot hFree),
    Geometry.coordinateAt?_slot, ← Geometry.coordinate?_of_pointIndex? hi]

end Linkage

end PlaneSketch
