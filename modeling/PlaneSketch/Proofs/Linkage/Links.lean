import PlaneSketch.Proofs.Linkage.Scatter

/-!
# Links depend on names

The links of a linkage hang on the names of the entities and on the constraints.  Where the points
are, and which of them is dragged, only decides about values.

* `links_attach_congr`, `links_unify_congr`, `links_pin_congr`, …: each operation on slots makes
  its links from links.
* `links_build_congr`: **two builds over the same names and constraints link all slots alike.**
* `representative_congr_links`, `freeBefore_congr_links`, `isInactive_congr_links`, …: what is read
  off the links.
-/

namespace PlaneSketch

namespace Slots

variable {α : Type} {a b : Slots α}

def links (slots : Slots α) : List Link := slots.map (·.link)

theorem getElem?_links (slots : Slots α) (s : Nat) : slots.links[s]? = slots.link? s :=
  List.getElem?_map

theorem link?_congr (h : a.links = b.links) (s : Nat) : a.link? s = b.link? s := by
  rw [← getElem?_links, h, getElem?_links]

theorem links_ext (h : ∀ s, a.link? s = b.link? s) : a.links = b.links := by
  apply List.ext_getElem?
  intro s
  rw [getElem?_links, getElem?_links, h]

theorem length_congr_links (h : a.links = b.links) : a.length = b.length := by
  simpa [links] using congrArg List.length h

theorem representative_congr_links (h : a.links = b.links) (s : Nat) :
    a.representative s = b.representative s :=
  representative_congr (link?_congr h s)

/-- Counting free slots is counting links. -/
theorem countP_eq_links (slots : Slots α) :
    List.countP (·.link = .base) slots = slots.links.countP (· = .base) := by
  rw [links, List.countP_map]
  rfl

/-! ## The operations -/

theorem attach_of_length_le (target : Nat) {u : Nat} (hu : a.length ≤ u) :
    attach target a u = a := by
  have hNone : a.link? u = none := link?_eq_none_iff.mpr hu
  rw [attach, hNone]
  exact List.modify_eq_self hu

theorem links_attach_congr (h : a.links = b.links) (target u : Nat) :
    (attach target a u).links = (attach target b u).links := by
  refine links_ext fun s => ?_
  by_cases hTo : ∃ old, a.link? u = some (.to old)
  · obtain ⟨old, hTo⟩ := hTo
    have hTo' := (link?_congr h u).symm.trans hTo
    rw [link?_attach_of_to target hTo, link?_attach_of_to target hTo', link?_congr h]
  · have hNot : ∀ t, a.link? u ≠ some (.to t) := fun t ht => hTo ⟨t, ht⟩
    have hNot' : ∀ t, b.link? u ≠ some (.to t) := fun t ht => hTo ⟨t, (link?_congr h u).trans ht⟩
    by_cases hu : u < a.length
    · have hu' : u < b.length := length_congr_links h ▸ hu
      rw [link?_attach_of_not_to target hNot hu, link?_attach_of_not_to target hNot' hu',
        link?_congr h]
    · have hu' : b.length ≤ u := length_congr_links h ▸ Nat.le_of_not_lt hu
      rw [attach_of_length_le target (Nat.le_of_not_lt hu), attach_of_length_le target hu',
        link?_congr h]

theorem links_foldl_attach_congr (target : Nat) (group : List Nat) :
    ∀ {a b : Slots α}, a.links = b.links →
      (group.foldl (attach target) a).links = (group.foldl (attach target) b).links := by
  induction group with
  | nil => intro a b h; exact h
  | cons u group ih => intro a b h; exact ih (links_attach_congr h target u)

theorem existingTarget?_congr (h : a.links = b.links) (group : List Nat) :
    a.existingTarget? group = b.existingTarget? group := by
  simp only [existingTarget?, link?_congr h]

/-- The point that is dragged decides about the value of a new group, not about its links. -/
theorem links_unify_congr [Zero α] (h : a.links = b.links) (points : List Nat)
    (active active' : Option Nat) (axis : Axis) :
    (a.unify points active axis).links = (b.unify points active' axis).links := by
  rw [unify, unify, existingTarget?_congr h]
  cases b.existingTarget? (points.map axis.slot) with
  | some target => exact links_foldl_attach_congr target _ h
  | none =>
    simp only [length_congr_links h]
    refine links_foldl_attach_congr _ _ ?_
    rw [links, links, List.map_append, List.map_append, ← links, ← links, h]
    rfl

theorem links_unifyAll_congr [Zero α] (active active' : Option Nat)
    (ties : List (List Nat × Axis)) :
    ∀ {a b : Slots α}, a.links = b.links →
      (a.unifyAll active ties).links = (b.unifyAll active' ties).links := by
  induction ties with
  | nil => intro a b h; exact h
  | cons tie ties ih =>
    intro a b h
    exact ih (links_unify_congr h tie.1 active active' tie.2)

theorem links_pin (u : Nat) :
    (a.pin u).links =
      if u < a.length then a.links.set (a.representative u) .fixed else a.links := by
  rw [pin]
  by_cases hu : u < a.length
  · obtain ⟨v, hv⟩ := value?_isSome hu
    rw [hv, if_pos hu]
    exact List.map_set
  · have hNone : a.value? u = none := by
      rw [value?, List.getElem?_eq_none (Nat.le_of_not_lt hu)]
      rfl
    rw [hNone, if_neg hu]

theorem links_foldl_pin_congr (pins : List Nat) :
    ∀ {a b : Slots α}, a.links = b.links →
      (pins.foldl pin a).links = (pins.foldl pin b).links := by
  induction pins with
  | nil => intro a b h; exact h
  | cons u pins ih =>
    intro a b h
    refine ih ?_
    rw [links_pin, links_pin, h, length_congr_links h, representative_congr_links h]

theorem links_foldl_lead (us : List Nat) : (us.foldl lead a).links = a.links :=
  links_ext (foldl_lead_kept us a).2.1

theorem links_markOrphans_congr (h : a.links = b.links) (n : Nat) :
    (a.markOrphans n).links = (b.markOrphans n).links := by
  refine links_ext fun s => ?_
  have hAny : (a.take n).any (·.link = .to s) = (b.take n).any (·.link = .to s) := by
    rw [Bool.eq_iff_iff, any_take_iff, any_take_iff]
    simp only [link?_congr h]
  have hSlot : ∀ c : Slots α, (c.markOrphans n).link? s = (c.link? s).map fun link =>
      if s < n ∨ (c.take n).any (·.link = .to s) then link else .orphan := by
    intro c
    rw [markOrphans, link?, link?, List.getElem?_mapIdx, Option.map_map, Option.map_map]
    congr 1
    funext slot
    simp only [Function.comp_apply]
    split <;> rfl
  rw [hSlot, hSlot, hAny, link?_congr h]

end Slots

namespace Linkage

variable {α : Type} {g g' : Geometry α} {constraints : List (Constraint α)}

/-! ## Whole builds -/

theorem indices_congr (h : g.SameIds g') (c : Constraint α) : c.indices g = c.indices g' := by
  rw [Constraint.indices, Constraint.indices]
  congr 1
  funext p
  exact h.pointIndex? p

theorem ties_congr (h : g.SameIds g') (constraints : List (Constraint α)) :
    ties g constraints = ties g' constraints := by
  simp only [ties, Constraint.ties, indices_congr h]

theorem pins_congr (h : g.SameIds g') (constraints : List (Constraint α)) :
    pins g constraints = pins g' constraints := by
  simp only [pins, Constraint.pins, indices_congr h]

theorem located_congr (h : g.SameIds g') {c : Constraint α} : c.Located g ↔ c.Located g' := by
  simp only [Constraint.Located, h.pointIndex?]

/-- The classes hang on the names of the entities only. -/
theorem sameCoordinate_congr_ids (h : g.SameIds g') :
    SameCoordinate g constraints = SameCoordinate g' constraints := by
  rw [← grouped_eq_sameCoordinate, ← grouped_eq_sameCoordinate, Grouped, Grouped, ties_congr h]

theorem links_initial (g : Geometry α) :
    (Slots.initial g).links = List.replicate (2 * g.pointCount) .base := by
  apply List.ext_getElem?
  intro s
  rw [Slots.getElem?_links, List.getElem?_replicate]
  by_cases hs : s < 2 * g.pointCount
  · rw [link?_initial hs, if_pos hs]
  · rw [Slots.link?_eq_none_iff.mpr (by rw [length_initial]; omega), if_neg hs]

theorem links_assemble_congr [Zero α] (h : g.SameIds g') (active active' : Option Nat) :
    (assemble g constraints active).slots.links =
      (assemble g' constraints active').slots.links := by
  rw [assemble, assemble, h.pointCount]
  refine Slots.links_markOrphans_congr ?_ _
  rw [Slots.links_foldl_lead, Slots.links_foldl_lead, settled, settled, pins_congr h, ties_congr h]
  refine Slots.links_foldl_pin_congr _ (Slots.links_unifyAll_congr _ _ _ ?_)
  rw [links_initial, links_initial, h.pointCount]

section Built

variable [Zero α] {active active' : Option PointRef} {l l' : Linkage α}

/-- **Two builds over the same names and constraints link all slots alike.** -/
theorem links_build_congr (h : build g constraints active = .ok l) (hIds : g.SameIds g')
    (h' : build g' constraints active' = .ok l') : l.slots.links = l'.slots.links := by
  rw [eq_assemble_of_build h, eq_assemble_of_build h']
  exact links_assemble_congr hIds _ _

/-- A build over the same names succeeds again. -/
theorem exists_build_of_sameIds (h : build g constraints active = .ok l) (hIds : g.SameIds g')
    (hActive : ∀ p, active' = some p → (g.pointIndex? p).isSome) :
    ∃ l', build g' constraints active' = .ok l' := by
  obtain ⟨-, hLocated, -⟩ := (build_eq_ok_iff constraints active l).mp h
  refine ⟨_, (build_eq_ok_iff constraints active' _).mpr ⟨fun p hp => ?_, fun c hc => ?_, rfl⟩⟩
  · rw [← hIds.pointIndex?]
    exact hActive p hp
  · exact (located_congr hIds).mp (hLocated c hc)

theorem pointCount_of_build (h : build g constraints active = .ok l) :
    l.pointCount = g.pointCount := by
  rw [eq_assemble_of_build h]
  rfl

theorem arcCount_of_build (h : build g constraints active = .ok l) :
    l.arcCount = g.arcs.length := by
  rw [eq_assemble_of_build h]
  rfl

theorem linked_of_build (h : build g constraints active = .ok l) :
    l.slots.Linked (2 * g.pointCount) := by
  rw [eq_assemble_of_build h]
  exact linked_assemble

end Built

/-! ## What is read off the links -/

section Read

variable {l l' : Linkage α}

theorem freeBefore_congr_links (h : l.slots.links = l'.slots.links) (s : Nat) :
    l.freeBefore s = l'.freeBefore s := by
  have hTake : (l.slots.take s).map (·.link) = (l'.slots.take s).map (·.link) := by
    rw [List.map_take, List.map_take]
    exact congrArg (List.take s) h
  rw [freeBefore, freeBefore, Slots.countP_eq_links, Slots.countP_eq_links, Slots.links, hTake]
  rfl

theorem freeCount_congr_links (h : l.slots.links = l'.slots.links) :
    l.freeCount = l'.freeCount := by
  rw [freeCount, freeCount, Slots.countP_eq_links, Slots.countP_eq_links, h]

theorem isPointFixed_congr_links (h : l.slots.links = l'.slots.links) (i : Nat) :
    l.isPointFixed i = l'.isPointFixed i := by
  simp only [isPointFixed, representative, Slots.representative_congr_links h,
    Slots.link?_congr h]

theorem isInactive_congr_links (h : l.slots.links = l'.slots.links) (hIds : g.SameIds g')
    (c : Constraint α) : l.isInactive g c = l'.isInactive g' c := by
  have hFixed : l.isPointFixed = l'.isPointFixed := funext (isPointFixed_congr_links h)
  simp only [isInactive, hFixed, hIds.pointIndex?]

end Read

end Linkage

end PlaneSketch
