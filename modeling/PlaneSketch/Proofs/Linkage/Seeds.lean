import PlaneSketch.Proofs.Linkage.Variables

/-!
# Seeds of groups

The auxiliary slot of a group is no coordinate of its own.  What it holds was copied from some
member of the group: from the first one when the group was made, from a pinned one, or from the
dragged one.

* `Slots.Seeded`: every group holds the value of one of its members; kept by tying
  (`Seeded.unify`) and by everything that writes the value of a member to its group
  (`Seeded.of_write`): pinning, leading and marking.
* `exists_seed_of_build`: **in a linkage every class of coordinates holds the coordinate of one of
  its members.**
* `value?_representative_of_agree`: where the members of every class agree, it is that of them all.
-/

namespace PlaneSketch

namespace Slots

variable {α : Type} {slots slots' : Slots α} {n : Nat}

/-- Every group holds the value of one of its members. -/
def Seeded (n : Nat) (slots : Slots α) : Prop :=
  ∀ s < n, ∃ u < n, slots.representative u = slots.representative s ∧
    slots.value? (slots.representative s) = slots.value? u

/-! ## Tying -/

/-- A new group of points takes its value from one of them. -/
theorem exists_seedPoint? {points : List Nat} {q : Nat} (hq : q ∈ points) (active : Option Nat) :
    ∃ p ∈ points, seedPoint? points active = some p := by
  rw [seedPoint?]
  cases hFind : points.find? fun p => some p != active with
  | some p => exact ⟨p, List.mem_of_find?_eq_some hFind, rfl⟩
  | none =>
    cases points with
    | nil => exact absurd hq List.not_mem_nil
    | cons p points => exact ⟨p, List.mem_cons_self, rfl⟩

theorem value?_append_length (slot : Slot α) :
    Slots.value? (slots ++ [slot]) slots.length = some slot.value := by
  simp [value?]

section Unify

variable [Zero α] {points : List Nat} {axis : Axis}

/-- What a group is attached to holds the value of one of the slots that are touched. -/
theorem Seeded.exists_target (hSeeded : Seeded n slots) (h : Linked n slots) (active : Option Nat)
    (hPoints : ∀ p ∈ points, axis.slot p < n) :
    ∃ wider target, Target n slots (points.map axis.slot) wider target ∧
      slots.unify points active axis = (points.map axis.slot).foldl (attach target) wider ∧
      (∀ t < slots.length, wider.value? t = slots.value? t) ∧
      ∀ q ∈ points, ∃ u < n, slots.Touches (points.map axis.slot) u ∧
        wider.value? target = slots.value? u := by
  rw [Slots.unify]
  cases hTarget : slots.existingTarget? (points.map axis.slot) with
  | some target =>
    refine ⟨slots, target, target_of_existingTarget? h hTarget, rfl, fun _ _ => rfl, ?_⟩
    intro _ _
    -- the target represents some slot of the group
    rw [existingTarget?] at hTarget
    obtain ⟨v, hv, hLink⟩ := List.exists_of_findSome?_eq_some hTarget
    split at hLink
    · next t ht =>
      obtain rfl := Option.some.inj hLink
      obtain ⟨u, hu, hRep, hValue⟩ := hSeeded v (h.target ht).1
      refine ⟨u, hu, ⟨v, hv, hRep.symm⟩, ?_⟩
      rw [← representative_of_to ht]
      exact hValue
    · exact absurd hLink (by simp)
  | none =>
    refine ⟨_, slots.length, target_append h _ _, rfl, fun t ht => value?_append_of_lt _ ht, ?_⟩
    intro q hq
    obtain ⟨p, hp, hSeed⟩ := exists_seedPoint? hq active
    have hpn : axis.slot p < n := hPoints p hp
    obtain ⟨v, hv⟩ := value?_isSome (Nat.lt_of_lt_of_le hpn h.length_le)
    refine ⟨axis.slot p, hpn, ⟨axis.slot p, List.mem_map_of_mem hp, rfl⟩, ?_⟩
    rw [value?_append_length, hSeed, Option.bind_some, hv, Option.getD_some]

/-- **Tying seeds the joint group with a member of one of those that it joins.** -/
theorem Seeded.unify (hSeeded : Seeded n slots) (h : Linked n slots) (active : Option Nat)
    (hPoints : ∀ p ∈ points, axis.slot p < n) : Seeded n (slots.unify points active axis) := by
  have hGroup : ∀ u ∈ points.map axis.slot, u < n := List.forall_mem_map.mpr hPoints
  have hOwn : ∀ {u}, u < n → (slots.unify points active axis).value? u = slots.value? u :=
    fun hu => value?_unify h hu
  obtain ⟨wider, target, hTarget, hEq, hWider, hSeed⟩ := hSeeded.exists_target h active hPoints
  have hMoved : ∀ {u}, u < n → slots.Touches (points.map axis.slot) u →
      (slots.unify points active axis).representative u = target := by
    intro u hu hTouched
    rw [hEq]
    exact (hTarget.representative_foldl hGroup hu).1 hTouched
  have hKept : ∀ {u}, u < n → ¬ slots.Touches (points.map axis.slot) u →
      (slots.unify points active axis).representative u = slots.representative u := by
    intro u hu hApart
    rw [hEq]
    exact (hTarget.representative_foldl hGroup hu).2 hApart
  intro s hs
  by_cases hTouched : slots.Touches (points.map axis.slot) s
  · obtain ⟨t, ht, hRep⟩ := hTouched
    have hTouched : slots.Touches (points.map axis.slot) s := ⟨t, ht, hRep⟩
    obtain ⟨q, hq, -⟩ := List.mem_map.mp ht
    obtain ⟨u, hu, hTouched', hValue⟩ := hSeed q hq
    refine ⟨u, hu, (hMoved hu hTouched').trans (hMoved hs hTouched).symm, ?_⟩
    rw [hOwn hu, hMoved hs hTouched, hEq, value?_foldl_attach, hValue]
  · obtain ⟨u, hu, hRep, hValue⟩ := hSeeded s hs
    have hApart : ¬ slots.Touches (points.map axis.slot) u :=
      fun ⟨t, ht, hRep'⟩ => hTouched ⟨t, ht, hRep'.trans hRep⟩
    refine ⟨u, hu, ?_, ?_⟩
    · rw [hKept hu hApart, hKept hs hTouched, hRep]
    · rw [hOwn hu, hKept hs hTouched, hEq, value?_foldl_attach,
        hWider _ (h.representative_lt_length hs), hValue]

end Unify

/-! ## Pinning, leading, marking -/

/-- **A group stays seeded when the value of one of its members is written to it.** -/
theorem Seeded.of_write (hSeeded : Seeded n slots)
    (hRep : ∀ s < n, slots'.representative s = slots.representative s)
    (hOwn : ∀ s < n, slots'.value? s = slots.value? s)
    (hValue : ∀ s, slots'.value? s = slots.value? s ∨
      ∃ u < n, s = slots.representative u ∧ slots'.value? s = slots.value? u) :
    Seeded n slots' := by
  intro s hs
  rw [hRep s hs]
  rcases hValue (slots.representative s) with hKept | ⟨u, hu, hAt, hWritten⟩
  · obtain ⟨u, hu, hSame, hSeed⟩ := hSeeded s hs
    exact ⟨u, hu, (hRep u hu).trans hSame, by rw [hKept, hSeed, hOwn u hu]⟩
  · exact ⟨u, hu, (hRep u hu).trans hAt.symm, by rw [hWritten, hOwn u hu]⟩

theorem Seeded.pin (hSeeded : Seeded n slots) (h : Linked n slots) {u : Nat} (hu : u < n) :
    Seeded n (slots.pin u) := by
  refine hSeeded.of_write (fun s _ => representative_pin h hu)
    (fun s hs => value?_pin_of_lt h hu hs) fun s => ?_
  rw [value?_pin h hu]
  split
  · next hAt => exact Or.inr ⟨u, hu, hAt, rfl⟩
  · exact Or.inl rfl

theorem Seeded.lead (hSeeded : Seeded n slots) (h : Linked n slots) {u : Nat} (hu : u < n) :
    Seeded n (slots.lead u) := by
  refine hSeeded.of_write (fun s _ => representative_lead u s)
    (fun s hs => value?_lead_of_lt h hu hs) fun s => ?_
  obtain ⟨v, hv⟩ := exists_value? h hu
  rw [value?_lead hv]
  split
  · next hAt => exact Or.inr ⟨u, hu, hAt.1, hv.symm⟩
  · exact Or.inl rfl

theorem Seeded.markOrphans (hSeeded : Seeded n slots) : Seeded n (slots.markOrphans n) :=
  hSeeded.of_write (fun _ hs => representative_congr (link?_markOrphans_of_lt hs))
    (fun s _ => value?_markOrphans s) fun s => Or.inl (value?_markOrphans s)

/-! ### Several in turn -/

theorem Seeded.unifyAll [Zero α] (hSeeded : Seeded n slots) (h : Linked n slots)
    (active : Option Nat) {ties : List (List Nat × Axis)} (hBounded : Bounded n ties) :
    Seeded n (slots.unifyAll active ties) := by
  refine (List.foldlRecOn (motive := fun slots => Linked n slots ∧ Seeded n slots) ties _
    ⟨h, hSeeded⟩ fun slots hBoth tie hTie => ?_).2
  exact ⟨linked_unify hBoth.1 (hBounded tie hTie), hBoth.2.unify hBoth.1 active (hBounded tie hTie)⟩

theorem Seeded.foldl_pin (hSeeded : Seeded n slots) (h : Linked n slots) {pins : List Nat}
    (hPins : ∀ u ∈ pins, u < n) : Seeded n (pins.foldl Slots.pin slots) := by
  refine (List.foldlRecOn (motive := fun slots => Linked n slots ∧ Seeded n slots) pins _
    ⟨h, hSeeded⟩ fun slots hBoth u hu => ?_).2
  exact ⟨hBoth.1.pin (hPins u hu), hBoth.2.pin hBoth.1 (hPins u hu)⟩

theorem Seeded.foldl_lead (hSeeded : Seeded n slots) (h : Linked n slots) {us : List Nat}
    (hUs : ∀ u ∈ us, u < n) : Seeded n (us.foldl Slots.lead slots) := by
  refine (List.foldlRecOn (motive := fun slots => Linked n slots ∧ Seeded n slots) us _
    ⟨h, hSeeded⟩ fun slots hBoth u hu => ?_).2
  exact ⟨hBoth.1.lead u, hBoth.2.lead hBoth.1 (hUs u hu)⟩

end Slots

namespace Linkage

variable {α : Type} [Zero α] {g : Geometry α} {constraints : List (Constraint α)}
  {active : Option PointRef} {l : Linkage α}

theorem value?_settled {active : Option Nat} {s : Nat} (hs : s < 2 * g.pointCount) :
    (settled g constraints active).value? s = g.coordinateAt? s := by
  obtain ⟨-, -, hValue⟩ := Slots.foldl_pin_kept (pins g constraints)
    (linked_tied g constraints active) fun _ hu => pins_lt hu
  rw [settled, hValue s hs]
  exact Slots.value?_unifyAll hs _ (linked_initial g) (bounded_ties g constraints)

omit [Zero α] in
/-- The slots of the dragged point are slots of points. -/
theorem bothSlots_active_lt (g : Geometry α) (active : Option PointRef) :
    ∀ s ∈ bothSlots (active.bind g.pointIndex?).toList, s < 2 * g.pointCount := by
  refine bothSlots_lt fun i hi => ?_
  obtain ⟨p, -, hp⟩ := Option.bind_eq_some_iff.mp (Option.mem_toList.mp hi)
  exact Geometry.pointIndex?_lt hp

/-- The slot of a point keeps the coordinate of that point. -/
theorem value?_of_build (h : build g constraints active = .ok l) {s : Nat}
    (hs : s < 2 * g.pointCount) : l.slots.value? s = g.coordinateAt? s := by
  rw [eq_assemble_of_build h, assemble, Slots.value?_markOrphans,
    Slots.value?_foldl_lead_of_lt _ linked_settled (bothSlots_active_lt g active) hs,
    value?_settled hs]

theorem seeded_of_build (h : build g constraints active = .ok l) :
    l.slots.Seeded (2 * g.pointCount) := by
  have hInitial : (Slots.initial g).Seeded (2 * g.pointCount) :=
    fun s hs => ⟨s, hs, rfl, by rw [(holds_initial hs).representative]⟩
  have hTied := hInitial.unifyAll (linked_initial g) (active.bind g.pointIndex?)
    (bounded_ties g constraints)
  have hSettled : (settled g constraints (active.bind g.pointIndex?)).Seeded (2 * g.pointCount) :=
    hTied.foldl_pin (linked_tied g constraints _) fun _ hu => pins_lt hu
  rw [eq_assemble_of_build h, assemble]
  exact (hSettled.foldl_lead linked_settled (bothSlots_active_lt g active)).markOrphans

/-- **Every class of coordinates holds the coordinate of one of its members.** -/
theorem exists_seed_of_build (h : build g constraints active = .ok l) {s : Nat}
    (hs : s < 2 * g.pointCount) : ∃ u, SameCoordinate g constraints s u ∧
      l.slots.value? (l.representative s) = g.coordinateAt? u := by
  obtain ⟨u, hu, hRep, hValue⟩ := seeded_of_build h s hs
  refine ⟨u, (representative_eq_iff h hs hu).mp hRep.symm, ?_⟩
  rw [representative, hValue, value?_of_build h hu]

/-- **Where the members of every class agree, the class holds what they agree on.** -/
theorem value?_representative_of_agree (h : build g constraints active = .ok l)
    (hAgree : ∀ s t, SameCoordinate g constraints s t → g.coordinateAt? s = g.coordinateAt? t)
    {s : Nat} (hs : s < 2 * g.pointCount) :
    l.slots.value? (l.representative s) = g.coordinateAt? s := by
  obtain ⟨u, hSame, hValue⟩ := exists_seed_of_build h hs
  rw [hValue, hAgree s u hSame]

end Linkage

end PlaneSketch
