import Mathlib.Data.Set.Card
import PlaneSketch.Proofs.Linkage.Build

/-!
# Classes of coordinates

The groups of a linkage, said without slots being linked: two coordinates must agree when a chain
of constraints ties them together (`SameCoordinate`), and a class of coordinates is constant when
one of them belongs to a fixed point (`Held`).

* `representative_eq_iff`: **two point slots share a representative exactly when they are the
  same coordinate.**
* `degreesOfFreedom_eq`: the variables are the classes without a held coordinate, and the arcs.
* `Alike.of_partitions`: with the partition the number of variables, the fixed points and the
  inactive constraints are given, so that no order and no dragged point makes a difference.
-/

namespace PlaneSketch

/-- The axes along which a kind makes points agree. -/
inductive ConstraintKind.Ties : ConstraintKind → Axis → Prop
  | coincidence (axis : Axis) : Ties .coincidence axis
  | horizontality : Ties .horizontality .y
  | verticality : Ties .verticality .x

theorem ConstraintKind.mem_tiedAxes_iff {kind : ConstraintKind} {axis : Axis} :
    axis ∈ kind.tiedAxes ↔ kind.Ties axis := by
  constructor
  · intro h
    cases kind <;> simp only [tiedAxes, List.not_mem_nil, List.mem_cons, or_false] at h
    · exact .coincidence axis
    · exact h ▸ .horizontality
    · exact h ▸ .verticality
  · intro h
    cases h with
    | coincidence axis => cases axis <;> decide
    | horizontality => decide
    | verticality => decide

theorem Axis.slot_inj {axis axis' : Axis} {i j : Nat} (h : axis.slot i = axis'.slot j) :
    axis = axis' ∧ i = j := by
  cases axis <;> cases axis' <;> simp only [Axis.slot] at h
  · exact ⟨rfl, by omega⟩
  · omega
  · omega
  · exact ⟨rfl, by omega⟩

namespace Constraint

variable {α : Type} {c d : Constraint α} {constraints constraints' : List (Constraint α)}

/-- Equal up to the order of operands, and the name. -/
def Rearranges (c d : Constraint α) : Prop := c.kind = d.kind ∧ c.operands.Perm d.operands

/-- Equal up to the order of constraints and of the operands in each. -/
def Rearranged (constraints constraints' : List (Constraint α)) : Prop :=
  ∃ middle, constraints.Perm middle ∧ List.Forall₂ Rearranges middle constraints'

/-- Every constraint of a list is found in another one, up to the order of its operands. -/
def Covered (constraints constraints' : List (Constraint α)) : Prop :=
  ∀ c ∈ constraints, ∃ d ∈ constraints', c.Rearranges d

theorem Rearranges.symm (h : c.Rearranges d) : d.Rearranges c := ⟨h.1.symm, h.2.symm⟩

theorem Rearranges.mem_points (h : c.Rearranges d) {p : PointRef} (hp : p ∈ c.points) :
    p ∈ d.points := by
  obtain ⟨o, ho, hPoint⟩ := List.mem_flatMap.mp hp
  exact List.mem_flatMap.mpr ⟨o, h.2.mem_iff.mp ho, hPoint⟩

theorem Rearranges.located {g : Geometry α} (h : d.Rearranges c) (hc : c.Located g) :
    d.Located g := by
  intro hKind p hp
  rw [h.1] at hKind
  exact hc hKind p (h.mem_points hp)

theorem Rearranged.covered (h : Rearranged constraints constraints') :
    Covered constraints constraints' := by
  obtain ⟨middle, hPerm, hPairs⟩ := h
  intro c hc
  obtain ⟨i, hi, rfl⟩ := List.getElem_of_mem (hPerm.mem_iff.mp hc)
  have hi' : i < constraints'.length := hPairs.length_eq ▸ hi
  exact ⟨constraints'[i], List.getElem_mem hi', hPairs.get hi hi'⟩

theorem Rearranged.covered_symm (h : Rearranged constraints constraints') :
    Covered constraints' constraints := by
  obtain ⟨middle, hPerm, hPairs⟩ := h
  intro d hd
  obtain ⟨i, hi, rfl⟩ := List.getElem_of_mem hd
  have hi' : i < middle.length := hPairs.length_eq ▸ hi
  exact ⟨middle[i], hPerm.mem_iff.mpr (List.getElem_mem hi'), (hPairs.get hi' hi).symm⟩

end Constraint

namespace Linkage

variable {α : Type} {g : Geometry α} {constraints : List (Constraint α)}

/-- `s` is the slot of a coordinate of the point `p`. -/
def IsSlot (g : Geometry α) (axis : Axis) (p : PointRef) (s : Nat) : Prop :=
  ∃ i, g.pointIndex? p = some i ∧ axis.slot i = s

/-- A constraint ties two slots: they are the same coordinate of two of its points. -/
def TiedBy (g : Geometry α) (c : Constraint α) (s t : Nat) : Prop :=
  ∃ axis, c.kind.Ties axis ∧ (∃ p ∈ c.points, IsSlot g axis p s) ∧ ∃ q ∈ c.points, IsSlot g axis q t

/-- The constraints make two slots agree, through a chain of ties. -/
def SameCoordinate (g : Geometry α) (constraints : List (Constraint α)) : Nat → Nat → Prop :=
  Relation.EqvGen fun s t => ∃ c ∈ constraints, TiedBy g c s t

/-- The slot is a coordinate of a point that a `fixed` constraint names. -/
def Held (g : Geometry α) (constraints : List (Constraint α)) (s : Nat) : Prop :=
  ∃ c ∈ constraints, c.kind = .fixed ∧ ∃ p ∈ c.points, ∃ axis, IsSlot g axis p s

/-- The classes of coordinates of which none is held. -/
def freeClasses (g : Geometry α) (constraints : List (Constraint α)) : Set (Set Nat) :=
  {C | ∃ s < 2 * g.pointCount, C = {t | SameCoordinate g constraints s t} ∧
    ∀ t ∈ C, ¬ Held g constraints t}

/-! ## Ties and pins -/

theorem mem_map_indices_iff {c : Constraint α} {axis : Axis} {s : Nat} :
    s ∈ (c.indices g).map axis.slot ↔ ∃ p ∈ c.points, IsSlot g axis p s := by
  rw [List.mem_map]
  constructor
  · rintro ⟨i, hi, rfl⟩
    obtain ⟨p, hp, hIndex⟩ := List.mem_filterMap.mp hi
    exact ⟨p, hp, i, hIndex, rfl⟩
  · rintro ⟨p, hp, i, hIndex, rfl⟩
    exact ⟨i, List.mem_filterMap.mpr ⟨p, hp, hIndex⟩, rfl⟩

theorem tied_ties_iff {s t : Nat} :
    Slots.Tied (ties g constraints) s t ↔ ∃ c ∈ constraints, TiedBy g c s t := by
  constructor
  · rintro ⟨tie, hTie, hs, ht⟩
    obtain ⟨c, hc, hTie⟩ := List.mem_flatMap.mp hTie
    obtain ⟨axis, hAxis, rfl⟩ := List.mem_map.mp hTie
    exact ⟨c, hc, axis, ConstraintKind.mem_tiedAxes_iff.mp hAxis, mem_map_indices_iff.mp hs,
      mem_map_indices_iff.mp ht⟩
  · rintro ⟨c, hc, axis, hAxis, hs, ht⟩
    refine ⟨(c.indices g, axis), List.mem_flatMap.mpr ⟨c, hc, List.mem_map.mpr ⟨axis, ?_, rfl⟩⟩,
      mem_map_indices_iff.mpr hs, mem_map_indices_iff.mpr ht⟩
    exact ConstraintKind.mem_tiedAxes_iff.mpr hAxis

theorem grouped_eq_sameCoordinate (g : Geometry α) (constraints : List (Constraint α)) :
    Grouped g constraints = SameCoordinate g constraints := by
  rw [Grouped, SameCoordinate]
  congr 1
  funext s t
  exact propext tied_ties_iff

theorem mem_bothSlots_iff {points : List Nat} {s : Nat} :
    s ∈ bothSlots points ↔ ∃ axis : Axis, s ∈ points.map axis.slot := by
  simp only [bothSlots, List.mem_flatMap, List.mem_cons, List.not_mem_nil, or_false, List.mem_map]
  constructor
  · rintro ⟨i, hi, rfl | rfl⟩
    · exact ⟨.x, i, hi, rfl⟩
    · exact ⟨.y, i, hi, rfl⟩
  · rintro ⟨axis, i, hi, rfl⟩
    cases axis with
    | x => exact ⟨i, hi, Or.inl rfl⟩
    | y => exact ⟨i, hi, Or.inr rfl⟩

theorem bothSlots_lt {points : List Nat} (h : ∀ p ∈ points, p < g.pointCount) :
    ∀ s ∈ bothSlots points, s < 2 * g.pointCount := by
  intro s hs
  obtain ⟨axis, hSlot⟩ := mem_bothSlots_iff.mp hs
  obtain ⟨p, hp, rfl⟩ := List.mem_map.mp hSlot
  exact slot_lt (h p hp)

theorem mem_pins_iff {s : Nat} : s ∈ pins g constraints ↔ Held g constraints s := by
  constructor
  · intro hs
    obtain ⟨c, hc, hPin⟩ := List.mem_flatMap.mp hs
    rw [Constraint.pins] at hPin
    split at hPin
    · next hKind =>
      obtain ⟨axis, hAxis⟩ := mem_bothSlots_iff.mp hPin
      obtain ⟨p, hp, hSlot⟩ := mem_map_indices_iff.mp hAxis
      exact ⟨c, hc, hKind, p, hp, axis, hSlot⟩
    · exact absurd hPin (by simp)
  · rintro ⟨c, hc, hKind, p, hp, axis, hSlot⟩
    refine List.mem_flatMap.mpr ⟨c, hc, ?_⟩
    rw [Constraint.pins, if_pos hKind]
    exact mem_bothSlots_iff.mpr ⟨axis, mem_map_indices_iff.mpr ⟨p, hp, hSlot⟩⟩

theorem IsSlot.lt {axis : Axis} {p : PointRef} {s : Nat} (h : IsSlot g axis p s) :
    s < 2 * g.pointCount := by
  obtain ⟨i, hi, rfl⟩ := h
  exact slot_lt (Geometry.pointIndex?_lt hi)

/-- Classes do not leave the point slots. -/
theorem SameCoordinate.lt_iff {s t : Nat} (h : SameCoordinate g constraints s t) :
    s < 2 * g.pointCount ↔ t < 2 * g.pointCount := by
  induction h with
  | rel s t hTied =>
    obtain ⟨_, _, _, _, ⟨_, _, hs⟩, ⟨_, _, ht⟩⟩ := hTied
    exact ⟨fun _ => ht.lt, fun _ => hs.lt⟩
  | refl s => exact Iff.rfl
  | symm s t _ ih => exact ih.symm
  | trans s t u _ _ ih ih' => exact ih.trans ih'

/-! ## Rearranged constraints -/

variable {constraints' : List (Constraint α)}

theorem TiedBy.rearrange {c d : Constraint α} (h : c.Rearranges d) {s t : Nat}
    (hTied : TiedBy g c s t) : TiedBy g d s t := by
  obtain ⟨axis, hAxis, ⟨p, hp, hs⟩, ⟨q, hq, ht⟩⟩ := hTied
  exact ⟨axis, h.1 ▸ hAxis, ⟨p, h.mem_points hp, hs⟩, ⟨q, h.mem_points hq, ht⟩⟩

theorem SameCoordinate.mono (h : Constraint.Covered constraints constraints') {s t : Nat}
    (hSame : SameCoordinate g constraints s t) : SameCoordinate g constraints' s t := by
  refine Relation.EqvGen.mono ?_ s t hSame
  rintro s t ⟨c, hc, hTied⟩
  obtain ⟨d, hd, hOrder⟩ := h c hc
  exact ⟨d, hd, hTied.rearrange hOrder⟩

theorem Held.mono (h : Constraint.Covered constraints constraints') {s : Nat}
    (hHeld : Held g constraints s) : Held g constraints' s := by
  obtain ⟨c, hc, hKind, p, hp, hSlot⟩ := hHeld
  obtain ⟨d, hd, hOrder⟩ := h c hc
  exact ⟨d, hd, hOrder.1 ▸ hKind, p, hOrder.mem_points hp, hSlot⟩

theorem sameCoordinate_congr (h : Constraint.Covered constraints constraints')
    (h' : Constraint.Covered constraints' constraints) :
    SameCoordinate g constraints = SameCoordinate g constraints' := by
  funext s t
  exact propext ⟨.mono h, .mono h'⟩

theorem held_congr (h : Constraint.Covered constraints constraints')
    (h' : Constraint.Covered constraints' constraints) :
    Held g constraints = Held g constraints' := by
  funext s
  exact propext ⟨.mono h, .mono h'⟩

/-! ## Counting variables -/

theorem ncard_setOf_link?_base (slots : List (Slot α)) :
    {t | Slots.link? slots t = some .base}.ncard = slots.countP (·.link = .base) := by
  induction slots using List.reverseRecOn with
  | nil => simp [Slots.link?]
  | append_singleton slots slot ih =>
    have hLast : slots.length ∉ {t | Slots.link? slots t = some .base} := by
      simp [Slots.link?]
    have hFinite : {t | Slots.link? slots t = some .base}.Finite := by
      refine (Set.finite_lt_nat slots.length).subset fun t ht => ?_
      rw [Set.mem_ofPred_eq] at ht ⊢
      exact Slots.lt_length_of_link? ht
    have hOther : ∀ t, t ≠ slots.length →
        (Slots.link? (slots ++ [slot]) t = some .base ↔ Slots.link? slots t = some .base) := by
      intro t ht
      rcases Nat.lt_or_gt_of_ne ht with hLt | hGt
      · rw [Slots.link?_append_of_lt _ hLt]
      · rw [Slots.link?_append_of_gt _ hGt, Slots.link?_eq_none_iff.mpr (Nat.le_of_lt hGt)]
    rw [List.countP_append, List.countP_singleton, ← ih]
    by_cases hSlot : slot.link = .base
    · have hSet : {t | Slots.link? (slots ++ [slot]) t = some .base} =
          insert slots.length {t | Slots.link? slots t = some .base} := by
        ext t
        by_cases ht : t = slots.length
        · subst ht
          simp [Slots.link?_append_length, hSlot]
        · simp [ht, hOther t ht]
      rw [hSet, Set.ncard_insert_of_notMem hLast hFinite]
      simp [hSlot]
    · have hSet : {t | Slots.link? (slots ++ [slot]) t = some .base} =
          {t | Slots.link? slots t = some .base} := by
        ext t
        by_cases ht : t = slots.length
        · subst ht
          simpa [Slots.link?_append_length, hSlot] using hLast
        · exact hOther t ht
      rw [hSet]
      simp [hSlot]

/-! ## What a linkage is to say of the classes -/

/-- The groups, variables and fixed points of a linkage are those of the classes. -/
structure Partitions (l : Linkage α) (g : Geometry α) (constraints : List (Constraint α)) :
    Prop where
  representative : ∀ s t, s < 2 * g.pointCount → t < 2 * g.pointCount →
    (l.representative s = l.representative t ↔ SameCoordinate g constraints s t)
  degreesOfFreedom : l.degreesOfFreedom = (freeClasses g constraints).ncard + g.arcs.length
  isPointFixed : ∀ i < g.pointCount, (l.isPointFixed i = true ↔
    ∀ axis : Axis, ∃ t, SameCoordinate g constraints (axis.slot i) t ∧ Held g constraints t)

/-- Two linkages with the same groups, variables, fixed points and inactive constraints. -/
structure Alike (g : Geometry α) (l l' : Linkage α) : Prop where
  representative : ∀ s t, s < 2 * g.pointCount → t < 2 * g.pointCount →
    (l.representative s = l.representative t ↔ l'.representative s = l'.representative t)
  degreesOfFreedom : l.degreesOfFreedom = l'.degreesOfFreedom
  isPointFixed : ∀ i < g.pointCount, l.isPointFixed i = l'.isPointFixed i
  isInactive : ∀ c c' : Constraint α, c.Rearranges c' → l.isInactive g c = l'.isInactive g c'

variable {l : Linkage α}

theorem isInactive_congr {l' : Linkage α}
    (hFixed : ∀ i < g.pointCount, l.isPointFixed i = l'.isPointFixed i) {c c' : Constraint α}
    (hc : c.Rearranges c') : l.isInactive g c = l'.isInactive g c' := by
  have hPoint : ∀ p,
      (g.pointIndex? p).any l.isPointFixed = (g.pointIndex? p).any l'.isPointFixed := by
    intro p
    cases hp : g.pointIndex? p with
    | none => rfl
    | some i => exact hFixed i (Geometry.pointIndex?_lt hp)
  simp only [isInactive, hPoint, hc.1]
  congr 1
  rw [Bool.eq_iff_iff, List.all_eq_true, List.all_eq_true]
  exact ⟨fun hAll o ho => hAll o (hc.2.mem_iff.mpr ho),
    fun hAll o ho => hAll o (hc.2.mem_iff.mp ho)⟩

theorem Alike.of_partitions {l' : Linkage α} {constraints' : List (Constraint α)}
    (hl : l.Partitions g constraints) (hl' : l'.Partitions g constraints')
    (hSame : SameCoordinate g constraints = SameCoordinate g constraints')
    (hHeld : Held g constraints = Held g constraints') : Alike g l l' := by
  have hFixed : ∀ i < g.pointCount, l.isPointFixed i = l'.isPointFixed i := by
    intro i hi
    rw [Bool.eq_iff_iff, hl.isPointFixed i hi, hl'.isPointFixed i hi, hSame, hHeld]
  refine ⟨fun s t hs ht => ?_, ?_, hFixed, fun c c' hc => isInactive_congr hFixed hc⟩
  · rw [hl.representative s t hs ht, hl'.representative s t hs ht, hSame]
  · rw [hl.degreesOfFreedom, hl'.degreesOfFreedom, freeClasses, freeClasses, hSame, hHeld]

/-! ## Reading a built linkage -/

section Built

variable [Zero α] {active : Option PointRef}

theorem eq_assemble_of_build (h : build g constraints active = .ok l) :
    l = assemble g constraints (active.bind g.pointIndex?) :=
  ((build_eq_ok_iff constraints active l).mp h).2.2

/-- Every variable represents some point slot. -/
theorem exists_representative_of_build (h : build g constraints active = .ok l) {t : Nat}
    (ht : l.slots.link? t = some .base) : ∃ s < 2 * g.pointCount, l.representative s = t := by
  have hAssemble := eq_assemble_of_build h
  rw [hAssemble] at ht ⊢
  exact exists_representative_of_base ht

/-- **Two point slots share a representative exactly when they are the same coordinate.** -/
theorem representative_eq_iff (h : build g constraints active = .ok l) {s t : Nat}
    (hs : s < 2 * g.pointCount) (ht : t < 2 * g.pointCount) :
    l.representative s = l.representative t ↔ SameCoordinate g constraints s t := by
  rw [eq_assemble_of_build h, ← grouped_eq_sameCoordinate]
  exact representative_assemble_eq_iff _ hs ht

theorem link?_representative_of_held (h : build g constraints active = .ok l) {s t : Nat}
    (hs : s < 2 * g.pointCount) (hSame : SameCoordinate g constraints s t)
    (hHeld : Held g constraints t) : l.slots.link? (l.representative s) = some .fixed := by
  rw [eq_assemble_of_build h]
  refine link?_representative_of_pinned _ hs (mem_pins_iff.mpr hHeld) ?_
  rw [grouped_eq_sameCoordinate]
  exact hSame.symm

theorem link?_representative_of_not_held (h : build g constraints active = .ok l) {s : Nat}
    (hs : s < 2 * g.pointCount)
    (hFree : ∀ t, SameCoordinate g constraints s t → ¬ Held g constraints t) :
    l.slots.link? (l.representative s) = some .base := by
  rw [eq_assemble_of_build h]
  refine link?_representative_of_not_pinned hs fun u hu hGrouped => ?_
  rw [grouped_eq_sameCoordinate] at hGrouped
  exact hFree u hGrouped.symm (mem_pins_iff.mp hu)

theorem link?_representative_eq_base_iff (h : build g constraints active = .ok l) {s : Nat}
    (hs : s < 2 * g.pointCount) : l.slots.link? (l.representative s) = some .base ↔
      ∀ t, SameCoordinate g constraints s t → ¬ Held g constraints t := by
  refine ⟨fun hBase t hSame hHeld => ?_, link?_representative_of_not_held h hs⟩
  rw [link?_representative_of_held h hs hSame hHeld] at hBase
  exact absurd hBase (by simp)

theorem link?_representative_eq_fixed_iff (h : build g constraints active = .ok l) {s : Nat}
    (hs : s < 2 * g.pointCount) : l.slots.link? (l.representative s) = some .fixed ↔
      ∃ t, SameCoordinate g constraints s t ∧ Held g constraints t := by
  refine ⟨fun hFixed => ?_, fun ⟨t, hSame, hHeld⟩ => link?_representative_of_held h hs hSame hHeld⟩
  by_contra hNone
  rw [link?_representative_of_not_held h hs fun t hSame hHeld => hNone ⟨t, hSame, hHeld⟩] at hFixed
  exact absurd hFixed (by simp)

/-- Every variable stands for the class of the slots that it represents. -/
theorem freeClasses_eq_image (h : build g constraints active = .ok l) :
    freeClasses g constraints =
      (fun t => {s | s < 2 * g.pointCount ∧ l.representative s = t}) ''
        {t | l.slots.link? t = some .base} := by
  have hClass : ∀ {s}, s < 2 * g.pointCount → {t | SameCoordinate g constraints s t} =
      {t | t < 2 * g.pointCount ∧ l.representative t = l.representative s} := by
    intro s hs
    ext t
    constructor
    · intro hSame
      have ht := hSame.lt_iff.mp hs
      exact ⟨ht, ((representative_eq_iff h hs ht).mpr hSame).symm⟩
    · rintro ⟨ht, hRep⟩
      exact (representative_eq_iff h hs ht).mp hRep.symm
  ext C
  constructor
  · rintro ⟨s, hs, rfl, hFree⟩
    exact ⟨l.representative s, (link?_representative_eq_base_iff h hs).mpr hFree, (hClass hs).symm⟩
  · rintro ⟨t, hBase, rfl⟩
    obtain ⟨s, hs, rfl⟩ := exists_representative_of_build h hBase
    refine ⟨s, hs, (hClass hs).symm, fun u hu => ?_⟩
    have hSame : SameCoordinate g constraints s u := (hClass hs).ge hu
    exact (link?_representative_eq_base_iff h hs).mp hBase u hSame

/-- **The variables are the classes without a held coordinate, and the arcs.** -/
theorem degreesOfFreedom_eq (h : build g constraints active = .ok l) :
    l.degreesOfFreedom = (freeClasses g constraints).ncard + g.arcs.length := by
  have hArcs : l.arcCount = g.arcs.length := by rw [eq_assemble_of_build h]; rfl
  rw [degreesOfFreedom, freeCount, hArcs, freeClasses_eq_image h, Set.InjOn.ncard_image,
    ncard_setOf_link?_base]
  intro t ht t' _ hEq
  obtain ⟨s, hs, rfl⟩ := exists_representative_of_build h ht
  have hMem : s ∈ {s | s < 2 * g.pointCount ∧ l.representative s = t'} := Eq.le hEq ⟨hs, rfl⟩
  exact hMem.2

/-- **A point is fixed when both of its classes hold a coordinate of a fixed point.** -/
theorem isPointFixed_iff (h : build g constraints active = .ok l) {i : Nat}
    (hi : i < g.pointCount) : l.isPointFixed i = true ↔
      ∀ axis : Axis, ∃ t, SameCoordinate g constraints (axis.slot i) t ∧ Held g constraints t := by
  simp only [isPointFixed, List.all_cons, List.all_nil, Bool.and_true, Bool.and_eq_true,
    beq_iff_eq, link?_representative_eq_fixed_iff h (slot_lt hi)]
  constructor
  · rintro ⟨hx, hy⟩ axis
    cases axis with
    | x => exact hx
    | y => exact hy
  · intro hBoth
    exact ⟨hBoth .x, hBoth .y⟩

/-! ### The whole partition -/

theorem partitions_of_build (h : build g constraints active = .ok l) : l.Partitions g constraints :=
  ⟨fun _ _ hs ht => representative_eq_iff h hs ht, degreesOfFreedom_eq h,
    fun _ hi => isPointFixed_iff h hi⟩

/-- **The linkage is the partition of coordinates that the constraints generate**, whatever the
order of constraints and operands and whichever point is dragged. -/
theorem partition_of_build (h : build g constraints active = .ok l) :
    l.Partitions g constraints ∧
      ∀ (constraints' : List (Constraint α)) (active' : Option PointRef),
        Constraint.Rearranged constraints constraints' →
        (∀ p, active' = some p → (g.pointIndex? p).isSome) →
        ∃ l', build g constraints' active' = .ok l' ∧ Alike g l l' := by
  refine ⟨partitions_of_build h, fun constraints' active' hOrder hActive => ?_⟩
  have hLocated := ((build_eq_ok_iff constraints active l).mp h).2.1
  have h' : build g constraints' active' =
      .ok (assemble g constraints' (active'.bind g.pointIndex?)) := by
    refine (build_eq_ok_iff _ _ _).mpr ⟨hActive, fun c' hc' => ?_, rfl⟩
    obtain ⟨c, hc, hSame⟩ := hOrder.covered_symm c' hc'
    exact hSame.located (hLocated c hc)
  exact ⟨_, h', .of_partitions (partitions_of_build h) (partitions_of_build h')
    (sameCoordinate_congr hOrder.covered hOrder.covered_symm)
    (held_congr hOrder.covered hOrder.covered_symm)⟩

/-- Three segments, of which the constraints join four ends into one point by merging two groups,
lay the first one level and fix the joint. -/
def threeSegments : Geometry Int :=
  ⟨[⟨⟨0⟩, ⟨0, 0⟩, ⟨10, 0⟩⟩, ⟨⟨1⟩, ⟨12, 2⟩, ⟨20, 2⟩⟩, ⟨⟨2⟩, ⟨30, 0⟩, ⟨40, 0⟩⟩], []⟩

def threeJoints : List (Constraint Int) :=
  [⟨⟨0⟩, .coincidence, [.point (.stop ⟨0⟩), .point (.start ⟨1⟩)]⟩,
   ⟨⟨1⟩, .coincidence, [.point (.start ⟨2⟩), .point (.stop ⟨1⟩)]⟩,
   ⟨⟨2⟩, .coincidence, [.point (.start ⟨1⟩), .point (.start ⟨2⟩)]⟩,
   ⟨⟨3⟩, .horizontality, [.segment ⟨0⟩]⟩,
   ⟨⟨4⟩, .fixed, [.point (.start ⟨2⟩)]⟩]

theorem partition_of_build_threeSegments :
    ∃ l, build threeSegments threeJoints (some (.start ⟨0⟩)) = .ok l ∧
      l.Partitions threeSegments threeJoints ∧
      ∃ l', build threeSegments threeJoints.reverse none = .ok l' ∧ Alike threeSegments l l' := by
  obtain ⟨l, hl⟩ : ∃ l, build threeSegments threeJoints (some (.start ⟨0⟩)) = .ok l := ⟨_, rfl⟩
  obtain ⟨hPartitions, hOrder⟩ := partition_of_build hl
  refine ⟨l, hl, hPartitions, hOrder threeJoints.reverse none ⟨threeJoints.reverse, ?_, ?_⟩ ?_⟩
  · exact (List.reverse_perm _).symm
  · exact List.forall₂_same.mpr fun c _ => ⟨rfl, .refl _⟩
  · intro p hp
    exact absurd hp (by simp)

end Built

end Linkage

end PlaneSketch
