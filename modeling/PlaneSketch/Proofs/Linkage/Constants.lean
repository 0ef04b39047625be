import PlaneSketch.Proofs.Linkage.Groups

/-!
# Constants, leading values and orphans

What happens to the slots after their groups are tied: the groups of fixed points become
constant, the dragged point lends its coordinates to the groups that are still variable, and
auxiliary slots without a group are set aside.  None of this changes a representative.

* `link?_foldl_pin`: **the constant slots are the representatives of the pinned ones.**
* `value?_foldl_pin_last`: of several pinned slots in one group the last one wins.
* `value?_lead`: leading writes to a representative that is variable, and nowhere else.
* `link?_markOrphans_of_link`: a slot that some point links to is kept.
-/

namespace PlaneSketch

namespace Slots

variable {α : Type} {slots : Slots α} {n : Nat}

/-- Slots with equal links have equal representatives. -/
theorem representative_congr {slots' : Slots α} {s : Nat} (h : slots'.link? s = slots.link? s) :
    slots'.representative s = slots.representative s := by
  rw [representative, h, ← representative]

/-! ## Pinning -/

theorem pin_eq {u : Nat} {v : α} (hv : slots.value? u = some v) :
    slots.pin u = slots.set (slots.representative u) ⟨.fixed, v⟩ := by
  rw [pin, hv]

theorem exists_value? (h : Linked n slots) {u : Nat} (hu : u < n) :
    ∃ v, slots.value? u = some v :=
  value?_isSome (Nat.lt_of_lt_of_le hu h.length_le)

theorem link?_pin (h : Linked n slots) {u : Nat} (hu : u < n) (s : Nat) :
    (slots.pin u).link? s =
      if s = slots.representative u then some .fixed else slots.link? s := by
  obtain ⟨v, hv⟩ := exists_value? h hu
  have hLen := h.representative_lt_length hu
  rw [pin_eq hv, link?, List.getElem?_set]
  by_cases hs : s = slots.representative u
  · rw [if_pos hs, if_pos hs.symm, if_pos hLen]
    rfl
  · rw [if_neg hs, if_neg (Ne.symm hs), ← link?]

theorem value?_pin (h : Linked n slots) {u : Nat} (hu : u < n) (s : Nat) :
    (slots.pin u).value? s =
      if s = slots.representative u then slots.value? u else slots.value? s := by
  obtain ⟨v, hv⟩ := exists_value? h hu
  have hLen := h.representative_lt_length hu
  rw [pin_eq hv, value?, List.getElem?_set]
  by_cases hs : s = slots.representative u
  · rw [if_pos hs, if_pos hs.symm, if_pos hLen, hv]
    rfl
  · rw [if_neg hs, if_neg (Ne.symm hs), ← value?]

theorem holds_pin (h : Linked n slots) {u t : Nat} (hu : u < n) (ht : slots.Holds t) :
    (slots.pin u).Holds t := by
  rw [Holds, link?_pin h hu]
  split
  · exact Or.inr rfl
  · exact ht

theorem representative_pin (h : Linked n slots) {u s : Nat} (hu : u < n) :
    (slots.pin u).representative s = slots.representative s := by
  by_cases hs : s = slots.representative u
  · have hHolds := h.holds_representative hu
    rw [hs, (holds_pin h hu hHolds).representative, hHolds.representative]
  · apply representative_congr
    rw [link?_pin h hu, if_neg hs]

theorem Linked.pin (h : Linked n slots) {u : Nat} (hu : u < n) : Linked n (slots.pin u) := by
  have hLen : (slots.pin u).length = slots.length := by
    obtain ⟨v, hv⟩ := exists_value? h hu
    rw [pin_eq hv, List.length_set]
  refine ⟨hLen ▸ h.length_le, ?_, ?_⟩
  · intro s t hLink
    rw [link?_pin h hu] at hLink
    split at hLink
    · exact absurd hLink (by simp)
    · obtain ⟨hs, ht, hHolds⟩ := h.target hLink
      exact ⟨hs, ht, holds_pin h hu hHolds⟩
  · intro s hs
    rw [link?_pin h hu]
    split
    · simp
    · exact h.point hs

/-- The values of point slots are never overwritten: a point slot represents itself only. -/
theorem value?_pin_of_lt (h : Linked n slots) {u s : Nat} (hu : u < n) (hs : s < n) :
    (slots.pin u).value? s = slots.value? s := by
  rw [value?_pin h hu]
  split
  · next hRep =>
    have hSelf := h.eq_of_representative_lt hu (hRep ▸ hs)
    rw [hRep, hSelf]
  · rfl

/-- What pinning a list of slots keeps. -/
theorem foldl_pin_kept (pins : List Nat) :
    ∀ {slots : Slots α}, Linked n slots → (∀ u ∈ pins, u < n) →
      Linked n (pins.foldl pin slots) ∧
      (∀ s, (pins.foldl pin slots).representative s = slots.representative s) ∧
      (∀ s, s < n → (pins.foldl pin slots).value? s = slots.value? s) := by
  induction pins with
  | nil => intro slots h _; exact ⟨h, fun _ => rfl, fun _ _ => rfl⟩
  | cons u pins ih =>
    intro slots h hPins
    obtain ⟨hu, hPins⟩ := List.forall_mem_cons.mp hPins
    obtain ⟨hLinked, hRep, hValue⟩ := ih (h.pin hu) hPins
    refine ⟨hLinked, fun s => ?_, fun s hs => ?_⟩
    · rw [List.foldl_cons, hRep, representative_pin h hu]
    · rw [List.foldl_cons, hValue s hs, value?_pin_of_lt h hu hs]

/-- **The constant slots are the representatives of the pinned ones.** -/
theorem link?_foldl_pin (t : Nat) (pins : List Nat) :
    ∀ {slots : Slots α}, Linked n slots → (∀ u ∈ pins, u < n) →
      ((∃ u ∈ pins, slots.representative u = t) →
        (pins.foldl pin slots).link? t = some .fixed) ∧
      ((∀ u ∈ pins, slots.representative u ≠ t) →
        (pins.foldl pin slots).link? t = slots.link? t) := by
  induction pins with
  | nil =>
    intro slots _ _
    exact ⟨fun ⟨u, hu, _⟩ => absurd hu (by simp), fun _ => rfl⟩
  | cons u pins ih =>
    intro slots h hPins
    obtain ⟨hu, hPins⟩ := List.forall_mem_cons.mp hPins
    obtain ⟨ihPinned, ihApart⟩ := ih (h.pin hu) hPins
    simp only [representative_pin h hu] at ihPinned ihApart
    rw [List.foldl_cons]
    by_cases hLater : ∃ v ∈ pins, slots.representative v = t
    · rw [ihPinned hLater]
      refine ⟨fun _ => rfl, fun hApart => ?_⟩
      obtain ⟨v, hv, hRep⟩ := hLater
      exact absurd hRep (hApart v (List.mem_cons_of_mem u hv))
    · rw [ihApart fun v hv hRep => hLater ⟨v, hv, hRep⟩, link?_pin h hu]
      constructor
      · rintro ⟨v, hv, hRep⟩
        rcases List.mem_cons.mp hv with rfl | hv
        · rw [if_pos hRep.symm]
        · exact absurd ⟨v, hv, hRep⟩ hLater
      · intro hApart
        exact if_neg (Ne.symm (hApart u (List.mem_cons_self ..)))

theorem value?_foldl_pin_of_apart {t : Nat} (pins : List Nat) :
    ∀ {slots : Slots α}, Linked n slots → (∀ u ∈ pins, u < n) →
      (∀ u ∈ pins, slots.representative u ≠ t) →
      (pins.foldl pin slots).value? t = slots.value? t := by
  induction pins with
  | nil => intro slots _ _ _; rfl
  | cons u pins ih =>
    intro slots h hPins hApart
    obtain ⟨hu, hPins⟩ := List.forall_mem_cons.mp hPins
    obtain ⟨hHere, hApart⟩ := List.forall_mem_cons.mp hApart
    rw [List.foldl_cons, ih (h.pin hu) hPins ?_, value?_pin h hu, if_neg (Ne.symm hHere)]
    intro v hv
    rw [representative_pin h hu]
    exact hApart v hv

/-- **The last pinned slot of a group gives the group its value.** -/
theorem value?_foldl_pin_last (h : Linked n slots) {before after : List Nat} {u : Nat}
    (hPins : ∀ v ∈ before ++ u :: after, v < n)
    (hLast : ∀ v ∈ after, slots.representative v ≠ slots.representative u) :
    ((before ++ u :: after).foldl pin slots).value? (slots.representative u) = slots.value? u := by
  obtain ⟨hBefore, hRest⟩ := List.forall_mem_append.mp hPins
  obtain ⟨hu, hAfter⟩ := List.forall_mem_cons.mp hRest
  obtain ⟨hLinked, hRep, hValue⟩ := foldl_pin_kept before h hBefore
  rw [List.foldl_append, List.foldl_cons,
    value?_foldl_pin_of_apart after (hLinked.pin hu) hAfter ?_, value?_pin hLinked hu, hRep,
    if_pos rfl, hValue u hu]
  intro v hv
  rw [representative_pin hLinked hu, hRep]
  exact hLast v hv

/-! ## Leading -/

theorem link?_lead (u s : Nat) : (slots.lead u).link? s = slots.link? s := by
  rw [lead]
  split
  · rw [link?, link?, List.getElem?_modify]
    cases slots[s]? with
    | none => simp
    | some slot =>
      simp only [Option.map_eq_map, Option.map_some, Option.some.injEq]
      split
      · split <;> rfl
      · rfl
  · rfl

theorem length_lead (u : Nat) : (slots.lead u).length = slots.length := by
  rw [lead]
  split <;> simp

theorem representative_lead (u s : Nat) :
    (slots.lead u).representative s = slots.representative s :=
  representative_congr (link?_lead u s)

/-- Leading writes to a representative that is variable, and nowhere else. -/
theorem value?_lead {u : Nat} {v : α} (hu : slots.value? u = some v) (s : Nat) :
    (slots.lead u).value? s =
      if s = slots.representative u ∧ slots.link? s = some .base then some v
      else slots.value? s := by
  rw [lead, hu, value?, List.getElem?_modify, link?]
  cases hSlot : slots[s]? with
  | none => simp [value?, hSlot]
  | some slot =>
    simp only [Option.map_eq_map, Option.map_some, value?, hSlot]
    by_cases hs : s = slots.representative u
    · by_cases hBase : slot.link = .base
      · simp [hs, hBase]
      · simp [hs, hBase]
    · simp [hs, Ne.symm hs]

theorem value?_lead_of_not {u s : Nat}
    (h : ¬ (s = slots.representative u ∧ slots.link? s = some .base)) :
    (slots.lead u).value? s = slots.value? s := by
  cases hu : slots.value? u with
  | none => rw [lead, hu]
  | some v => rw [value?_lead hu, if_neg h]

/-- A constant is not led. -/
theorem value?_lead_of_fixed {u s : Nat} (hs : slots.link? s = some .fixed) :
    (slots.lead u).value? s = slots.value? s :=
  value?_lead_of_not fun h => absurd (hs.symm.trans h.2) (by simp)

theorem foldl_lead_kept (us : List Nat) :
    ∀ slots : Slots α, (us.foldl lead slots).length = slots.length ∧
      (∀ s, (us.foldl lead slots).link? s = slots.link? s) ∧
      (∀ s, slots.link? s = some .fixed → (us.foldl lead slots).value? s = slots.value? s) := by
  induction us with
  | nil => intro slots; exact ⟨rfl, fun _ => rfl, fun _ _ => rfl⟩
  | cons u us ih =>
    intro slots
    obtain ⟨hLen, hLink, hValue⟩ := ih (slots.lead u)
    refine ⟨hLen.trans (length_lead u), fun s => (hLink s).trans (link?_lead u s), ?_⟩
    intro s hs
    rw [List.foldl_cons, hValue s ((link?_lead u s).trans hs), value?_lead_of_fixed hs]

theorem Linked.of_link?_eq (h : Linked n slots) {slots' : Slots α}
    (hLen : slots'.length = slots.length) (hLink : ∀ s, slots'.link? s = slots.link? s) :
    Linked n slots' := by
  refine ⟨hLen ▸ h.length_le, ?_, ?_⟩
  · intro s t hTo
    rw [Holds, hLink t]
    exact h.target ((hLink s).symm.trans hTo)
  · intro s hs
    rw [hLink s]
    exact h.point hs

theorem Linked.lead (h : Linked n slots) (u : Nat) : Linked n (slots.lead u) :=
  h.of_link?_eq (length_lead u) (link?_lead u)

/-- Leading changes the value of no point slot: one that is a representative leads itself. -/
theorem value?_lead_of_lt (h : Linked n slots) {u s : Nat} (hu : u < n) (hs : s < n) :
    (slots.lead u).value? s = slots.value? s := by
  obtain ⟨v, hv⟩ := exists_value? h hu
  rw [value?_lead hv]
  split
  · next hRep =>
    have hSelf : slots.representative u = u := h.eq_of_representative_lt hu (hRep.1 ▸ hs)
    rw [hRep.1, hSelf, hv]
  · rfl

theorem value?_foldl_lead_of_lt (us : List Nat) :
    ∀ {slots : Slots α}, Linked n slots → (∀ u ∈ us, u < n) → ∀ {s : Nat}, s < n →
      (us.foldl lead slots).value? s = slots.value? s := by
  induction us with
  | nil => intro slots _ _ s _; rfl
  | cons u us ih =>
    intro slots h hUs s hs
    obtain ⟨hu, hUs⟩ := List.forall_mem_cons.mp hUs
    rw [List.foldl_cons, ih (h.lead u) hUs hs, value?_lead_of_lt h hu hs]

/-! ## Orphans -/

theorem any_take_iff {t : Nat} :
    (slots.take n).any (·.link = .to t) = true ↔ ∃ s, s < n ∧ slots.link? s = some (.to t) := by
  rw [List.any_eq_true]
  constructor
  · rintro ⟨slot, hSlot, hTo⟩
    obtain ⟨s, hs, hAt⟩ := List.mem_take_iff_getElem.mp hSlot
    refine ⟨s, by omega, ?_⟩
    rw [link?, List.getElem?_eq_getElem (by omega), hAt]
    simpa using hTo
  · rintro ⟨s, hs, hLink⟩
    rw [link?, Option.map_eq_some_iff] at hLink
    obtain ⟨slot, hAt, hTo⟩ := hLink
    refine ⟨slot, ?_, by simpa using hTo⟩
    obtain ⟨hLen, hAt⟩ := List.getElem?_eq_some_iff.mp hAt
    exact List.mem_take_iff_getElem.mpr ⟨s, by omega, hAt⟩

theorem value?_markOrphans (s : Nat) : (slots.markOrphans n).value? s = slots.value? s := by
  rw [markOrphans, value?, value?, List.getElem?_mapIdx, Option.map_map]
  congr 1
  funext slot
  simp only [Function.comp_apply]
  split <;> rfl

theorem link?_markOrphans_of_lt {s : Nat} (hs : s < n) :
    (slots.markOrphans n).link? s = slots.link? s := by
  rw [markOrphans, link?, link?, List.getElem?_mapIdx, Option.map_map]
  congr 1
  funext slot
  simp [hs]

/-- A slot that some point links to is kept. -/
theorem link?_markOrphans_of_link {s t : Nat} (hs : s < n)
    (hLink : slots.link? s = some (.to t)) :
    (slots.markOrphans n).link? t = slots.link? t := by
  have hAny := any_take_iff.mpr ⟨s, hs, hLink⟩
  rw [markOrphans, link?, link?, List.getElem?_mapIdx, Option.map_map]
  congr 1
  funext slot
  simp only [Function.comp_apply]
  rw [if_pos (Or.inr hAny)]

/-- An auxiliary slot that no point links to is an orphan. -/
theorem link?_markOrphans_of_no_link {t : Nat} (ht : n ≤ t) (hLen : t < slots.length)
    (hNone : ∀ s, s < n → slots.link? s ≠ some (.to t)) :
    (slots.markOrphans n).link? t = some .orphan := by
  have hAny : ¬ (slots.take n).any (·.link = .to t) = true := by
    intro hAny
    obtain ⟨s, hs, hLink⟩ := any_take_iff.mp hAny
    exact hNone s hs hLink
  rw [markOrphans, link?, List.getElem?_mapIdx, List.getElem?_eq_getElem hLen, Option.map_some,
    if_neg (not_or.mpr ⟨by omega, hAny⟩)]
  rfl

theorem length_markOrphans : (slots.markOrphans n).length = slots.length := List.length_mapIdx

/-- The representative of a point slot is kept. -/
theorem link?_markOrphans_representative {s : Nat} (hs : s < n) :
    (slots.markOrphans n).link? (slots.representative s) =
      slots.link? (slots.representative s) := by
  by_cases hTo : ∃ t, slots.link? s = some (.to t)
  · obtain ⟨t, hTo⟩ := hTo
    rw [representative_of_to hTo]
    exact link?_markOrphans_of_link hs hTo
  · rw [representative_of_not_to fun t hLink => hTo ⟨t, hLink⟩]
    exact link?_markOrphans_of_lt hs

theorem Linked.markOrphans (h : Linked n slots) : Linked n (slots.markOrphans n) := by
  refine ⟨by rw [length_markOrphans]; exact h.length_le, ?_, ?_⟩
  · intro s t hLink
    by_cases hs : s < n
    · rw [link?_markOrphans_of_lt hs] at hLink
      rw [Holds, link?_markOrphans_of_link hs hLink]
      exact h.target hLink
    · -- auxiliary slots link nowhere, marked or not
      rw [Slots.markOrphans, link?, List.getElem?_mapIdx, Option.map_map,
        Option.map_eq_some_iff] at hLink
      obtain ⟨slot, hAt, hTo⟩ := hLink
      simp only [Function.comp_apply] at hTo
      split at hTo
      · have hBefore : slots.link? s = some (.to t) := by rw [link?, hAt, Option.map_some, hTo]
        exact absurd (h.target hBefore).1 hs
      · exact absurd hTo (by simp)
  · intro s hs
    rw [link?_markOrphans_of_lt hs]
    exact h.point hs

end Slots

end PlaneSketch
