import Mathlib.Logic.Relation
import PlaneSketch.Constraint.Linkage
import PlaneSketch.Proofs.Geometry

/-!
# Groups of slots

The slots of a linkage are a union structure in which every member of a group links directly to
the auxiliary slot of the group.  What the operations do is said through `representative` alone:

* `Linked`: links go from point slots to auxiliary slots that hold a value.
* `representative_attach`, `representative_foldl_attach`: attaching slots to a target moves
  exactly the groups of these slots there.
* `representative_unify_eq_iff`: **tying a list of slots together joins exactly the groups that it
  touches.**

`n` is the number of point slots, those before the auxiliary ones.
-/

namespace PlaneSketch

namespace Slots

variable {α : Type} {slots : Slots α} {n : Nat}

theorem link?_eq_none_iff {s : Nat} : slots.link? s = none ↔ slots.length ≤ s := by
  simp [link?]

theorem lt_length_of_link? {s : Nat} {link : Link} (h : slots.link? s = some link) :
    s < slots.length := by
  rw [← Nat.not_le, ← link?_eq_none_iff, h]
  simp

theorem value?_isSome {s : Nat} (h : s < slots.length) : ∃ v, slots.value? s = some v := by
  simp [value?, h]

/-! ## Representatives -/

/-- The slot holds a value of its own, a variable or a constant. -/
def Holds (slots : Slots α) (s : Nat) : Prop :=
  slots.link? s = some .base ∨ slots.link? s = some .fixed

theorem representative_of_to {s t : Nat} (h : slots.link? s = some (.to t)) :
    slots.representative s = t := by
  rw [representative, h]

theorem representative_of_not_to {s : Nat} (h : ∀ t, slots.link? s ≠ some (.to t)) :
    slots.representative s = s := by
  rw [representative]
  split
  · next t ht => exact absurd ht (h t)
  · rfl

theorem Holds.not_to {s : Nat} (h : slots.Holds s) (t : Nat) : slots.link? s ≠ some (.to t) := by
  rcases h with h | h <;> simp [h]

theorem Holds.lt_length {s : Nat} (h : slots.Holds s) : s < slots.length :=
  h.elim lt_length_of_link? lt_length_of_link?

theorem Holds.representative {s : Nat} (h : slots.Holds s) : slots.representative s = s :=
  representative_of_not_to h.not_to

/-- Slots of which the first `n` belong to points: only these link, and they link to later slots
that hold a value. -/
structure Linked (n : Nat) (slots : Slots α) : Prop where
  length_le : n ≤ slots.length
  target : ∀ {s t : Nat}, slots.link? s = some (.to t) → s < n ∧ n ≤ t ∧ slots.Holds t
  point : ∀ {s : Nat}, s < n → slots.link? s ≠ some .orphan

namespace Linked

variable {s t u : Nat}

/-- A point slot either holds its own value or links to a later slot. -/
theorem cases (h : Linked n slots) (hs : s < n) :
    slots.Holds s ∨ ∃ t, n ≤ t ∧ slots.Holds t ∧ slots.link? s = some (.to t) := by
  have hLen := h.length_le
  cases hLink : slots.link? s with
  | none =>
    rw [link?_eq_none_iff] at hLink
    omega
  | some l =>
    match l with
    | .base => exact Or.inl (Or.inl hLink)
    | .fixed => exact Or.inl (Or.inr hLink)
    | .orphan => exact absurd hLink (h.point hs)
    | .to t => exact Or.inr ⟨t, (h.target hLink).2.1, (h.target hLink).2.2, rfl⟩

/-- **Representatives are one step away**: they hold a value themselves. -/
theorem holds_representative (h : Linked n slots) (hs : s < n) :
    slots.Holds (slots.representative s) := by
  rcases h.cases hs with hHolds | ⟨t, _, hHolds, hLink⟩
  · rwa [hHolds.representative]
  · rwa [representative_of_to hLink]

/-- A representative among the point slots represents itself only. -/
theorem eq_of_representative_lt (h : Linked n slots) (hs : s < n)
    (hRep : slots.representative s < n) : slots.representative s = s := by
  rcases h.cases hs with hHolds | ⟨t, ht, _, hLink⟩
  · exact hHolds.representative
  · rw [representative_of_to hLink] at hRep
    omega

theorem representative_lt_length (h : Linked n slots) (hs : s < n) :
    slots.representative s < slots.length :=
  (h.holds_representative hs).lt_length

end Linked

/-! ## Attaching a slot to a target -/

theorem link?_attach_of_to (target : Nat) {u old : Nat} (hu : slots.link? u = some (.to old))
    (s : Nat) :
    (attach target slots u).link? s =
      if slots.link? s = some (.to old) then some (.to target) else slots.link? s := by
  simp only [attach, hu]
  split
  · next hOld =>
    subst hOld
    split
    · next h => exact h
    · rfl
  · rw [link?, link?, List.getElem?_map]
    match slots[s]? with
    | none => simp
    | some slot =>
      simp only [Option.map_some, Option.some.injEq]
      split <;> rfl

theorem link?_attach_of_not_to (target : Nat) {u : Nat} (hu : ∀ t, slots.link? u ≠ some (.to t))
    (hLen : u < slots.length) (s : Nat) :
    (attach target slots u).link? s = if s = u then some (.to target) else slots.link? s := by
  have hAttach : attach target slots u =
      slots.modify u fun slot => { slot with link := .to target } := by
    rw [attach]
    split
    · next t ht => exact absurd ht (hu t)
    · rfl
  rw [hAttach, link?, List.getElem?_modify]
  by_cases hs : s = u
  · subst hs
    simp [hLen]
  · simp [hs, Ne.symm hs, link?]

theorem value?_attach (target u s : Nat) :
    (attach target slots u).value? s = slots.value? s := by
  rw [attach]
  split
  · split
    · rfl
    · rw [value?, value?, List.getElem?_map]
      match slots[s]? with
      | none => rfl
      | some slot =>
        simp only [Option.map_some]
        split <;> rfl
  · rw [value?, value?, List.getElem?_modify]
    match slots[s]? with
    | none => simp
    | some slot =>
      simp only [Option.map_eq_map, Option.map_some]
      split <;> rfl

theorem length_attach (target u : Nat) : (attach target slots u).length = slots.length := by
  rw [attach]
  split
  · split <;> simp
  · simp

/-- **Attaching a slot moves its group to the target** and no other. -/
theorem representative_attach (h : Linked n slots) {target u : Nat} (hu : u < n) {s : Nat}
    (hs : s < n) : (attach target slots u).representative s =
      if slots.representative s = slots.representative u then target
      else slots.representative s := by
  have hLen := h.length_le
  rcases h.cases hu with hHolds | ⟨old, hOld, _, hLink⟩
  · -- `u` is alone in its group
    have hAttach := link?_attach_of_not_to target hHolds.not_to (by omega) s
    rw [hHolds.representative]
    by_cases hsu : s = u
    · subst hsu
      rw [if_pos rfl] at hAttach
      rw [representative_of_to hAttach, hHolds.representative, if_pos rfl]
    · rw [if_neg hsu] at hAttach
      have hNe : slots.representative s ≠ u := by
        intro hEq
        exact hsu ((h.eq_of_representative_lt hs (by omega)).symm.trans hEq)
      rw [if_neg hNe, representative, hAttach, ← representative]
  · have hAttach := link?_attach_of_to target hLink s
    rw [representative_of_to hLink]
    rcases h.cases hs with hHolds | ⟨t, ht, _, hLink'⟩
    · have hNe : slots.link? s ≠ some (.to old) := hHolds.not_to old
      rw [if_neg hNe] at hAttach
      rw [hHolds.representative, if_neg (by omega), representative, hAttach, ← representative,
        hHolds.representative]
    · rw [representative_of_to hLink']
      by_cases hEq : t = old
      · subst hEq
        rw [if_pos hLink'] at hAttach
        rw [if_pos rfl, representative_of_to hAttach]
      · have hNe : slots.link? s ≠ some (.to old) := by
          rw [hLink']
          simpa using hEq
        rw [if_neg hNe] at hAttach
        rw [if_neg hEq, representative_of_to (hAttach.trans hLink')]

/-- Auxiliary slots are left alone. -/
theorem link?_attach_of_le (h : Linked n slots) {target u t : Nat} (hu : u < n) (ht : n ≤ t) :
    (attach target slots u).link? t = slots.link? t := by
  have hLen := h.length_le
  rcases h.cases hu with hHolds | ⟨old, _, _, hLink⟩
  · rw [link?_attach_of_not_to target hHolds.not_to (by omega), if_neg (by omega)]
  · rw [link?_attach_of_to target hLink, if_neg]
    intro hTo
    have := (h.target hTo).1
    omega

theorem link?_attach_cases (h : Linked n slots) (target s : Nat) {u : Nat} (hu : u < n) :
    (attach target slots u).link? s = slots.link? s ∨
      s < n ∧ (attach target slots u).link? s = some (.to target) := by
  have hLen := h.length_le
  rcases h.cases hu with hHolds | ⟨old, _, _, hLink⟩
  · rw [link?_attach_of_not_to target hHolds.not_to (by omega)]
    split
    · next hsu => exact Or.inr ⟨hsu ▸ hu, rfl⟩
    · exact Or.inl rfl
  · rw [link?_attach_of_to target hLink]
    split
    · next hTo => exact Or.inr ⟨(h.target hTo).1, rfl⟩
    · exact Or.inl rfl

theorem Linked.attach (h : Linked n slots) {target u : Nat} (hTarget : n ≤ target)
    (hHolds : slots.Holds target) (hu : u < n) : Linked n (Slots.attach target slots u) := by
  have hHoldsAfter : ∀ {t}, n ≤ t → slots.Holds t → (Slots.attach target slots u).Holds t := by
    intro t ht hHolds
    rwa [Holds, link?_attach_of_le h hu ht]
  refine ⟨by rw [length_attach]; exact h.length_le, ?_, ?_⟩
  · intro s t hLink
    rcases link?_attach_cases h target s hu with hSame | ⟨hs, hNew⟩
    · obtain ⟨hs, ht, hHoldsOld⟩ := h.target (hSame.symm.trans hLink)
      exact ⟨hs, ht, hHoldsAfter ht hHoldsOld⟩
    · obtain rfl : target = t := by simpa [hNew] using hLink
      exact ⟨hs, hTarget, hHoldsAfter hTarget hHolds⟩
  · intro s hs
    rcases link?_attach_cases h target s hu with hSame | ⟨_, hNew⟩
    · rw [hSame]
      exact h.point hs
    · simp [hNew]

/-- A list of slots touches a group if one of them is in it. -/
def Touches (slots : Slots α) (group : List Nat) (s : Nat) : Prop :=
  ∃ u ∈ group, slots.representative u = slots.representative s

theorem linked_foldl_attach {target : Nat} (hTarget : n ≤ target) (group : List Nat) :
    ∀ {slots : Slots α}, Linked n slots → slots.Holds target → (∀ u ∈ group, u < n) →
      Linked n (group.foldl (attach target) slots) := by
  induction group with
  | nil => intro slots h _ _; exact h
  | cons u group ih =>
    intro slots h hHolds hGroup
    have hu : u < n := hGroup u (List.mem_cons_self ..)
    refine ih (h.attach hTarget hHolds hu) ?_ fun v hv => hGroup v (List.mem_cons_of_mem u hv)
    rwa [Holds, link?_attach_of_le h hu hTarget]

/-- **Attaching slots moves exactly the groups that they touch.** -/
theorem representative_foldl_attach {target : Nat} (hTarget : n ≤ target) (group : List Nat) :
    ∀ {slots : Slots α}, Linked n slots → slots.Holds target → (∀ u ∈ group, u < n) →
      ∀ {s : Nat}, s < n →
        (slots.Touches group s → (group.foldl (attach target) slots).representative s = target) ∧
        (¬ slots.Touches group s →
          (group.foldl (attach target) slots).representative s = slots.representative s) := by
  induction group with
  | nil =>
    intro slots _ _ _ s _
    exact ⟨fun ⟨u, hu, _⟩ => absurd hu (by simp), fun _ => rfl⟩
  | cons u group ih =>
    intro slots h hHolds hGroup s hs
    have hu : u < n := hGroup u (List.mem_cons_self ..)
    have hRest : ∀ v ∈ group, v < n := fun v hv => hGroup v (List.mem_cons_of_mem u hv)
    have hHolds' : (attach target slots u).Holds target := by
      rwa [Holds, link?_attach_of_le h hu hTarget]
    obtain ⟨ihTouched, ihApart⟩ := ih (h.attach hTarget hHolds hu) hHolds' hRest hs
    have hRep : ∀ {v}, v < n → (attach target slots u).representative v =
        if slots.representative v = slots.representative u then target
        else slots.representative v := representative_attach h hu
    rw [List.foldl_cons]
    by_cases hLater : (attach target slots u).Touches group s
    · rw [ihTouched hLater]
      refine ⟨fun _ => rfl, fun hApart => ?_⟩
      -- the rest moves the group of `s` although `u :: group` does not touch it: it is the target's
      obtain ⟨v, hv, hEq⟩ := hLater
      have hsu : slots.representative s ≠ slots.representative u :=
        fun hEq => hApart ⟨u, List.mem_cons_self .., hEq.symm⟩
      rw [hRep (hRest v hv), hRep hs, if_neg hsu] at hEq
      split at hEq
      · exact hEq
      · exact absurd ⟨v, List.mem_cons_of_mem u hv, hEq⟩ hApart
    · rw [ihApart hLater, hRep hs]
      constructor
      · rintro ⟨v, hv, hEq⟩
        split
        · rfl
        · next hsu =>
          rcases List.mem_cons.mp hv with rfl | hv
          · exact absurd hEq.symm hsu
          · refine absurd ⟨v, hv, ?_⟩ hLater
            rw [hRep (hRest v hv), hRep hs, hEq]
      · intro hApart
        exact if_neg fun hEq => hApart ⟨u, List.mem_cons_self .., hEq.symm⟩

/-- Attaching makes nothing constant. -/
theorem link?_of_foldl_attach_fixed {target : Nat} (hTarget : n ≤ target) {s : Nat}
    (group : List Nat) : ∀ {slots : Slots α}, Linked n slots → slots.Holds target →
      (∀ u ∈ group, u < n) → (group.foldl (attach target) slots).link? s = some .fixed →
      slots.link? s = some .fixed := by
  induction group with
  | nil => intro slots _ _ _ hFixed; exact hFixed
  | cons u group ih =>
    intro slots h hHolds hGroup hFixed
    have hu : u < n := hGroup u (List.mem_cons_self ..)
    have hHolds' : (attach target slots u).Holds target := by
      rwa [Holds, link?_attach_of_le h hu hTarget]
    have hAfter := ih (h.attach hTarget hHolds hu) hHolds'
      (fun v hv => hGroup v (List.mem_cons_of_mem u hv)) hFixed
    rcases link?_attach_cases h target s hu with hSame | ⟨_, hNew⟩
    · rwa [hSame] at hAfter
    · simp [hNew] at hAfter

theorem value?_foldl_attach (target : Nat) (group : List Nat) (s : Nat) :
    ∀ slots : Slots α, (group.foldl (attach target) slots).value? s = slots.value? s := by
  induction group with
  | nil => intro slots; rfl
  | cons u group ih => intro slots; rw [List.foldl_cons, ih, value?_attach]

/-! ## Tying a group together -/

theorem link?_append_of_lt (slot : Slot α) {s : Nat} (hs : s < slots.length) :
    Slots.link? (slots ++ [slot]) s = slots.link? s := by
  rw [link?, link?, List.getElem?_append_left hs]

theorem value?_append_of_lt (slot : Slot α) {s : Nat} (hs : s < slots.length) :
    Slots.value? (slots ++ [slot]) s = slots.value? s := by
  rw [value?, value?, List.getElem?_append_left hs]

theorem link?_append_length (slot : Slot α) :
    Slots.link? (slots ++ [slot]) slots.length = some slot.link := by
  simp [link?]

theorem link?_append_of_gt (slot : Slot α) {s : Nat} (hs : slots.length < s) :
    Slots.link? (slots ++ [slot]) s = none := by
  rw [link?_eq_none_iff, List.length_append, List.length_singleton]
  omega

theorem Linked.append (h : Linked n slots) (v : α) : Linked n (slots ++ [⟨.base, v⟩]) := by
  have hLen := h.length_le
  refine ⟨by simp only [List.length_append]; omega, ?_, ?_⟩
  · intro s t hLink
    have hs : s < slots.length := by
      rcases Nat.lt_trichotomy s slots.length with hs | hs | hs
      · exact hs
      · subst hs
        simp [link?_append_length] at hLink
      · rw [link?_append_of_gt _ hs] at hLink
        exact absurd hLink (by simp)
    rw [link?_append_of_lt _ hs] at hLink
    obtain ⟨hsn, ht, hHolds⟩ := h.target hLink
    refine ⟨hsn, ht, ?_⟩
    rwa [Holds, link?_append_of_lt _ hHolds.lt_length]
  · intro s hs
    rw [link?_append_of_lt _ (by omega)]
    exact h.point hs

/-- What a group of slots is attached to: an auxiliary slot that holds a value and represents no
slot outside the groups that the list touches. -/
structure Target (n : Nat) (slots : Slots α) (group : List Nat) (wider : Slots α)
    (target : Nat) : Prop where
  linked : Linked n wider
  auxiliary : n ≤ target
  holds : wider.Holds target
  representative : ∀ {s : Nat}, s < n → wider.representative s = slots.representative s
  touched : ∀ {s : Nat}, s < n → slots.representative s = target → slots.Touches group s
  value : ∀ {s : Nat}, s < n → wider.value? s = slots.value? s
  fixed : ∀ {s : Nat}, wider.link? s = some .fixed → slots.link? s = some .fixed

theorem target_of_existingTarget? (h : Linked n slots) {group : List Nat} {target : Nat}
    (hTarget : slots.existingTarget? group = some target) :
    Target n slots group slots target := by
  rw [existingTarget?, List.findSome?_eq_some_iff] at hTarget
  obtain ⟨before, u, after, rfl, hLink, _⟩ := hTarget
  split at hLink
  · next t ht =>
    obtain rfl := Option.some.inj hLink
    obtain ⟨_, hAux, hHolds⟩ := h.target ht
    refine ⟨h, hAux, hHolds, fun _ => rfl, fun _ hs => ⟨u, by simp, ?_⟩, fun _ => rfl, id⟩
    rw [hs, representative_of_to ht]
  · exact absurd hLink (by simp)

theorem target_append (h : Linked n slots) (group : List Nat) (v : α) :
    Target n slots group (slots ++ [⟨.base, v⟩]) slots.length := by
  have hLen := h.length_le
  refine ⟨h.append v, hLen, Or.inl (link?_append_length _), ?_, ?_, ?_, ?_⟩
  · intro s hs
    rw [representative, link?_append_of_lt _ (by omega), ← representative]
  · intro s hs hRep
    have := h.representative_lt_length hs
    omega
  · intro s hs
    exact value?_append_of_lt _ (by omega)
  · intro s hFixed
    rcases Nat.lt_trichotomy s slots.length with hs | rfl | hs
    · rwa [link?_append_of_lt _ hs] at hFixed
    · simp [link?_append_length] at hFixed
    · rw [link?_append_of_gt _ hs] at hFixed
      exact absurd hFixed (by simp)

/-- The wider slots have the same groups. -/
theorem Target.touches_iff {group : List Nat} {wider : Slots α} {target : Nat}
    (hTarget : Target n slots group wider target) (hGroup : ∀ u ∈ group, u < n) {s : Nat}
    (hs : s < n) : wider.Touches group s ↔ slots.Touches group s := by
  constructor
  · rintro ⟨u, hu, hRep⟩
    rw [hTarget.representative (hGroup u hu), hTarget.representative hs] at hRep
    exact ⟨u, hu, hRep⟩
  · rintro ⟨u, hu, hRep⟩
    rw [← hTarget.representative (hGroup u hu), ← hTarget.representative hs] at hRep
    exact ⟨u, hu, hRep⟩

/-- Attaching a group to its target moves exactly the groups that it touches. -/
theorem Target.representative_foldl {group : List Nat} {wider : Slots α} {target : Nat}
    (hTarget : Target n slots group wider target) (hGroup : ∀ u ∈ group, u < n) {s : Nat}
    (hs : s < n) :
    (slots.Touches group s → (group.foldl (attach target) wider).representative s = target) ∧
      (¬ slots.Touches group s →
        (group.foldl (attach target) wider).representative s = slots.representative s) := by
  obtain ⟨hMoved, hKept⟩ := representative_foldl_attach hTarget.auxiliary group hTarget.linked
    hTarget.holds hGroup hs
  rw [hTarget.touches_iff hGroup hs] at hMoved hKept
  exact ⟨hMoved, fun hApart => (hKept hApart).trans (hTarget.representative hs)⟩

section Unify

variable [Zero α] {points : List Nat} {active : Option Nat} {axis : Axis}

theorem exists_target (h : Linked n slots) (points : List Nat) (active : Option Nat)
    (axis : Axis) : ∃ wider target,
    Target n slots (points.map axis.slot) wider target ∧
      slots.unify points active axis = (points.map axis.slot).foldl (attach target) wider := by
  rw [unify]
  cases hTarget : slots.existingTarget? (points.map axis.slot) with
  | some target => exact ⟨slots, target, target_of_existingTarget? h hTarget, rfl⟩
  | none => exact ⟨_, slots.length, target_append h _ _, rfl⟩

theorem linked_unify (h : Linked n slots) (hPoints : ∀ p ∈ points, axis.slot p < n) :
    Linked n (slots.unify points active axis) := by
  obtain ⟨wider, target, hTarget, hEq⟩ := exists_target h points active axis
  rw [hEq]
  exact linked_foldl_attach hTarget.auxiliary _ hTarget.linked hTarget.holds
    (List.forall_mem_map.mpr hPoints)

theorem value?_unify (h : Linked n slots) {s : Nat} (hs : s < n) :
    (slots.unify points active axis).value? s = slots.value? s := by
  obtain ⟨wider, target, hTarget, hEq⟩ := exists_target h points active axis
  rw [hEq, value?_foldl_attach, hTarget.value hs]

/-- **Tying slots together joins exactly the groups that they touch.** -/
theorem representative_unify_eq_iff (h : Linked n slots) (hPoints : ∀ p ∈ points, axis.slot p < n)
    {s t : Nat} (hs : s < n) (ht : t < n) :
    (slots.unify points active axis).representative s =
        (slots.unify points active axis).representative t ↔
      slots.representative s = slots.representative t ∨
        slots.Touches (points.map axis.slot) s ∧ slots.Touches (points.map axis.slot) t := by
  obtain ⟨wider, target, hTarget, hEq⟩ := exists_target h points active axis
  have hGroup : ∀ u ∈ points.map axis.slot, u < n := List.forall_mem_map.mpr hPoints
  have hMoved : ∀ {v}, v < n → slots.Touches (points.map axis.slot) v →
      (slots.unify points active axis).representative v = target := by
    intro v hv hTouched
    rw [hEq]
    exact (hTarget.representative_foldl hGroup hv).1 hTouched
  have hKept : ∀ {v}, v < n → ¬ slots.Touches (points.map axis.slot) v →
      (slots.unify points active axis).representative v = slots.representative v := by
    intro v hv hApart
    rw [hEq]
    exact (hTarget.representative_foldl hGroup hv).2 hApart
  by_cases hTouchS : slots.Touches (points.map axis.slot) s
  · by_cases hTouchT : slots.Touches (points.map axis.slot) t
    · rw [hMoved hs hTouchS, hMoved ht hTouchT]
      exact ⟨fun _ => Or.inr ⟨hTouchS, hTouchT⟩, fun _ => rfl⟩
    · rw [hMoved hs hTouchS, hKept ht hTouchT]
      constructor
      · intro hRep
        exact absurd (hTarget.touched ht hRep.symm) hTouchT
      · rintro (hRep | ⟨_, hTouched⟩)
        · obtain ⟨u, hu, hRepU⟩ := hTouchS
          exact absurd ⟨u, hu, hRepU.trans hRep⟩ hTouchT
        · exact absurd hTouched hTouchT
  · by_cases hTouchT : slots.Touches (points.map axis.slot) t
    · rw [hKept hs hTouchS, hMoved ht hTouchT]
      constructor
      · intro hRep
        exact absurd (hTarget.touched hs hRep) hTouchS
      · rintro (hRep | ⟨hTouched, _⟩)
        · obtain ⟨u, hu, hRepU⟩ := hTouchT
          exact absurd ⟨u, hu, hRepU.trans hRep.symm⟩ hTouchS
        · exact absurd hTouched hTouchS
    · rw [hKept hs hTouchS, hKept ht hTouchT]
      exact ⟨Or.inl, fun hRep => hRep.resolve_right fun hBoth => hTouchS hBoth.1⟩

/-- Tying makes nothing constant. -/
theorem link?_of_unify_fixed (h : Linked n slots) (hPoints : ∀ p ∈ points, axis.slot p < n)
    {s : Nat} (hFixed : (slots.unify points active axis).link? s = some .fixed) :
    slots.link? s = some .fixed := by
  obtain ⟨wider, target, hTarget, hEq⟩ := exists_target h points active axis
  rw [hEq] at hFixed
  exact hTarget.fixed (link?_of_foldl_attach_fixed hTarget.auxiliary _ hTarget.linked hTarget.holds
    (List.forall_mem_map.mpr hPoints) hFixed)

/-! ### Several groups in turn -/

/-- Ties the coordinates of several lists of points, each along its axis. -/
def unifyAll (active : Option Nat) (slots : Slots α) (ties : List (List Nat × Axis)) : Slots α :=
  ties.foldl (fun slots tie => slots.unify tie.1 active tie.2) slots

/-- The coordinates that are tied belong to points. -/
def Bounded (n : Nat) (ties : List (List Nat × Axis)) : Prop :=
  ∀ tie ∈ ties, ∀ p ∈ tie.1, tie.2.slot p < n

theorem bounded_cons_iff {tie : List Nat × Axis} {ties : List (List Nat × Axis)} :
    Bounded n (tie :: ties) ↔ (∀ p ∈ tie.1, tie.2.slot p < n) ∧ Bounded n ties :=
  List.forall_mem_cons

/-- Some of the ties holds both slots. -/
def Tied (ties : List (List Nat × Axis)) (s t : Nat) : Prop :=
  ∃ tie ∈ ties, s ∈ tie.1.map tie.2.slot ∧ t ∈ tie.1.map tie.2.slot

variable {ties : List (List Nat × Axis)}

theorem linked_unifyAll (ties : List (List Nat × Axis)) :
    ∀ {slots : Slots α}, Linked n slots → Bounded n ties →
      Linked n (slots.unifyAll active ties) := by
  induction ties with
  | nil => intro slots h _; exact h
  | cons tie ties ih =>
    intro slots h hBounded
    obtain ⟨hHead, hRest⟩ := bounded_cons_iff.mp hBounded
    exact ih (linked_unify h hHead) hRest

theorem value?_unifyAll {s : Nat} (hs : s < n) (ties : List (List Nat × Axis)) :
    ∀ {slots : Slots α}, Linked n slots → Bounded n ties →
      (slots.unifyAll active ties).value? s = slots.value? s := by
  induction ties with
  | nil => intro slots _ _; rfl
  | cons tie ties ih =>
    intro slots h hBounded
    obtain ⟨hHead, hRest⟩ := bounded_cons_iff.mp hBounded
    rw [unifyAll, List.foldl_cons, ← unifyAll, ih (linked_unify h hHead) hRest,
      value?_unify h hs]

theorem link?_of_unifyAll_fixed {s : Nat} (ties : List (List Nat × Axis)) :
    ∀ {slots : Slots α}, Linked n slots → Bounded n ties →
      (slots.unifyAll active ties).link? s = some .fixed → slots.link? s = some .fixed := by
  induction ties with
  | nil => intro slots _ _ hFixed; exact hFixed
  | cons tie ties ih =>
    intro slots h hBounded hFixed
    obtain ⟨hHead, hRest⟩ := bounded_cons_iff.mp hBounded
    exact link?_of_unify_fixed h hHead (ih (linked_unify h hHead) hRest hFixed)

/-- Tying never splits a group. -/
theorem representative_unifyAll_mono {s t : Nat} (hs : s < n) (ht : t < n)
    (ties : List (List Nat × Axis)) :
    ∀ {slots : Slots α}, Linked n slots → Bounded n ties →
      slots.representative s = slots.representative t →
      (slots.unifyAll active ties).representative s =
        (slots.unifyAll active ties).representative t := by
  induction ties with
  | nil => intro slots _ _ hRep; exact hRep
  | cons tie ties ih =>
    intro slots h hBounded hRep
    obtain ⟨hHead, hRest⟩ := bounded_cons_iff.mp hBounded
    exact ih (linked_unify h hHead) hRest
      ((representative_unify_eq_iff h hHead hs ht).mpr (Or.inl hRep))

/-- Slots tied together end up in one group. -/
theorem representative_unifyAll_of_tied {s t : Nat} (ties : List (List Nat × Axis)) :
    ∀ {slots : Slots α}, Linked n slots → Bounded n ties → Tied ties s t →
      (slots.unifyAll active ties).representative s =
        (slots.unifyAll active ties).representative t := by
  induction ties with
  | nil =>
    rintro slots _ _ ⟨tie, hTie, _⟩
    exact absurd hTie (by simp)
  | cons tie ties ih =>
    rintro slots h hBounded ⟨tied, hTied, hs, ht⟩
    obtain ⟨hHead, hRest⟩ := bounded_cons_iff.mp hBounded
    rcases List.mem_cons.mp hTied with rfl | hLater
    · have hGroup : ∀ u ∈ tied.1.map tied.2.slot, u < n := List.forall_mem_map.mpr hHead
      refine representative_unifyAll_mono (hGroup s hs) (hGroup t ht) ties (linked_unify h hHead)
        hRest ((representative_unify_eq_iff h hHead (hGroup s hs) (hGroup t ht)).mpr ?_)
      exact Or.inr ⟨⟨s, hs, rfl⟩, ⟨t, ht, rfl⟩⟩
    · exact ih (linked_unify h hHead) hRest ⟨tied, hLater, hs, ht⟩

/-- An equivalence that holds the groups and the ties holds the groups after tying. -/
theorem rel_of_representative_unifyAll {r : Nat → Nat → Prop} (hr : Equivalence r)
    (ties : List (List Nat × Axis)) :
    ∀ {slots : Slots α}, Linked n slots → Bounded n ties → (∀ s t, Tied ties s t → r s t) →
      (∀ s t, s < n → t < n → slots.representative s = slots.representative t → r s t) →
      ∀ s t, s < n → t < n → (slots.unifyAll active ties).representative s =
        (slots.unifyAll active ties).representative t → r s t := by
  induction ties with
  | nil => intro slots _ _ _ hGroups; exact hGroups
  | cons tie ties ih =>
    intro slots h hBounded hTied hGroups
    obtain ⟨hHead, hRest⟩ := bounded_cons_iff.mp hBounded
    have hGroup : ∀ u ∈ tie.1.map tie.2.slot, u < n := List.forall_mem_map.mpr hHead
    refine ih (linked_unify h hHead) hRest
      (fun s t ⟨tie', hTie, hBoth⟩ => hTied s t ⟨tie', List.mem_cons_of_mem tie hTie, hBoth⟩) ?_
    intro s t hs ht hRep
    rcases (representative_unify_eq_iff h hHead hs ht).mp hRep with
      hBefore | ⟨⟨u, hu, hus⟩, ⟨v, hv, hvt⟩⟩
    · exact hGroups s t hs ht hBefore
    · have huv : r u v := hTied u v ⟨tie, List.mem_cons_self .., hu, hv⟩
      exact hr.trans (hr.symm (hGroups u s (hGroup u hu) hs hus))
        (hr.trans huv (hGroups v t (hGroup v hv) ht hvt))

/-- **Tying single slots yields the equivalence that the ties generate.** -/
theorem representative_unifyAll_eq_iff (h : Linked n slots)
    (hSingle : ∀ s, s < n → slots.representative s = s) (hBounded : Bounded n ties) {s t : Nat}
    (hs : s < n) (ht : t < n) :
    (slots.unifyAll active ties).representative s = (slots.unifyAll active ties).representative t ↔
      Relation.EqvGen (Tied ties) s t := by
  constructor
  · intro hRep
    refine rel_of_representative_unifyAll (Relation.EqvGen.is_equivalence _) ties h hBounded
      (fun s t hTied => .rel s t hTied) ?_ s t hs ht hRep
    intro s t hs ht hRep
    rw [hSingle s hs, hSingle t ht] at hRep
    exact hRep ▸ .refl s
  · intro hGen
    clear hs ht
    induction hGen with
    | rel s t hTied => exact representative_unifyAll_of_tied ties h hBounded hTied
    | refl s => rfl
    | symm s t _ ih => exact ih.symm
    | trans s t u _ _ ih ih' => exact ih.trans ih'

end Unify

end Slots

end PlaneSketch
