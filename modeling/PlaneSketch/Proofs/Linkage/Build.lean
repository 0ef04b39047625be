import PlaneSketch.Proofs.Linkage.Constants

/-!
# What a build succeeds on, and what it gives

A build fails only when it looks up a point that does not exist.  When it succeeds its slots are a
plain composition: tie all groups, pin all fixed points, lead with the dragged point, mark the
orphans.

* `build_eq_ok_iff`: **a build succeeds exactly when the points that it looks up exist**, and then
  it gives `assemble`.
* `representative_assemble_eq_iff`: the groups are the classes that the ties generate.
* `link?_representative_of_pinned`, `link?_representative_of_not_pinned`: a group is constant if
  one of its slots is pinned, and variable otherwise.
* `exists_representative_of_base`: every variable is the representative of some point slot.
-/

namespace PlaneSketch

/-- The coordinate of a point along an axis. -/
def Axis.coordinate {α : Type} (axis : Axis) (p : Vec2 α) : α :=
  match axis with
  | .x => p.x
  | .y => p.y

theorem bind_eq_ok_iff {β γ ε : Type} {x : Except ε β} {f : β → Except ε γ} {c : γ} :
    (x >>= f) = .ok c ↔ ∃ b, x = .ok b ∧ f b = .ok c := by
  cases x <;> simp [bind, Except.bind]

theorem map_eq_ok_iff {β γ ε : Type} {x : Except ε β} {f : β → γ} {c : γ} :
    x.map f = .ok c ↔ ∃ b, x = .ok b ∧ f b = c := by
  cases x <;> simp [Except.map]

/-- A loop whose steps either fail or do something total. -/
theorem foldlM_eq_ok_iff {β γ ε : Type} {f : β → γ → Except ε β} {Ready : γ → Prop}
    {step : β → γ → β} (hf : ∀ b x b', f b x = .ok b' ↔ Ready x ∧ b' = step b x) :
    ∀ (l : List γ) (b b' : β),
      l.foldlM f b = .ok b' ↔ (∀ x ∈ l, Ready x) ∧ b' = l.foldl step b := by
  intro l
  induction l with
  | nil =>
    intro b b'
    simp only [List.foldlM_nil, List.not_mem_nil, false_implies, implies_true, true_and,
      List.foldl_nil]
    exact ⟨fun h => (Except.ok.inj h).symm, fun h => congrArg Except.ok h.symm⟩
  | cons x l ih =>
    intro b b'
    rw [List.foldlM_cons, List.foldl_cons, List.forall_mem_cons, and_assoc, ← ih]
    cases hStep : f b x with
    | error e =>
      refine ⟨fun h => absurd h (by simp [bind, Except.bind]), fun h => ?_⟩
      rw [(hf b x (step b x)).mpr ⟨h.1, rfl⟩] at hStep
      exact absurd hStep (by simp)
    | ok b₁ =>
      obtain ⟨hReady, rfl⟩ := (hf b x b₁).mp hStep
      exact ⟨fun h => ⟨hReady, h⟩, fun h => h.2⟩

namespace Geometry

variable {α : Type} (g : Geometry α)

theorem locate_eq_ok_iff (p : PointRef) (i : Nat) :
    g.locate p = .ok i ↔ g.pointIndex? p = some i := by
  rw [locate]
  cases g.pointIndex? p with
  | none => simp
  | some j => simp

theorem mapM_locate_eq_ok_iff (points : List PointRef) (is : List Nat) :
    points.mapM g.locate = .ok is ↔
      (∀ p ∈ points, (g.pointIndex? p).isSome) ∧ is = points.filterMap g.pointIndex? := by
  induction points generalizing is with
  | nil =>
    simp only [List.mapM_nil, List.not_mem_nil, false_implies, implies_true, true_and,
      List.filterMap_nil]
    exact ⟨fun h => (Except.ok.inj h).symm, fun h => congrArg Except.ok h.symm⟩
  | cons p points ih =>
    rw [List.mapM_cons, List.forall_mem_cons]
    cases hp : g.pointIndex? p with
    | none =>
      have hLocate : g.locate p = .error (.unknownPoint p) := by rw [locate, hp]
      simp [hLocate, bind, Except.bind]
    | some i =>
      have hLocate : g.locate p = .ok i := (g.locate_eq_ok_iff p i).mpr hp
      rw [List.filterMap_cons_some hp, hLocate]
      cases hRest : points.mapM g.locate with
      | error e =>
        have hFails := (ih (points.filterMap g.pointIndex?)).not.mp (by simp [hRest])
        simp only [bind, Except.bind, Option.isSome_some, true_and]
        exact ⟨fun h => absurd h (by simp), fun h => absurd ⟨h.1, rfl⟩ hFails⟩
      | ok js =>
        obtain ⟨hAll, rfl⟩ := (ih js).mp hRest
        simp only [bind, Except.bind, pure, Except.pure, Option.isSome_some, true_and,
          Except.ok.injEq]
        exact ⟨fun h => ⟨hAll, h.symm⟩, fun h => h.2.symm⟩

end Geometry

namespace Constraint

variable {α : Type} (g : Geometry α) (c : Constraint α)

/-- The indices of the points of a constraint. -/
def indices : List Nat := c.points.filterMap g.pointIndex?

/-- The lists of points that a constraint ties, each along an axis. -/
def ties : List (List Nat × Axis) := c.kind.tiedAxes.map fun axis => (c.indices g, axis)

/-- The slots that a constraint pins. -/
def pins : List Nat := if c.kind = .fixed then Linkage.bothSlots (c.indices g) else []

/-- The points that a build looks up for a constraint exist. -/
def Located : Prop :=
  c.kind.tiesCoordinates = true ∨ c.kind = .fixed → ∀ p ∈ c.points, (g.pointIndex? p).isSome

theorem locate_eq_ok_iff (is : List Nat) :
    c.locate g = .ok is ↔ (∀ p ∈ c.points, (g.pointIndex? p).isSome) ∧ is = c.indices g :=
  g.mapM_locate_eq_ok_iff c.points is

variable {g c}

theorem indices_lt {i : Nat} (h : i ∈ c.indices g) : i < g.pointCount := by
  obtain ⟨p, _, hp⟩ := List.mem_filterMap.mp h
  exact Geometry.pointIndex?_lt hp

end Constraint

namespace Linkage

variable {α : Type} {g : Geometry α}

theorem tie_eq_ok_iff [Zero α] {active : Option Nat} (slots : Slots α) (c : Constraint α)
    (slots' : Slots α) : tie g active slots c = .ok slots' ↔
      (c.kind.tiesCoordinates = true → ∀ p ∈ c.points, (g.pointIndex? p).isSome) ∧
        slots' = slots.unifyAll active (c.ties g) := by
  rw [tie]
  split
  · next hTies =>
    simp only [map_eq_ok_iff, Constraint.locate_eq_ok_iff, Slots.unifyAll, Constraint.ties,
      List.foldl_map, hTies, true_implies]
    constructor
    · rintro ⟨_, ⟨hAll, rfl⟩, rfl⟩
      exact ⟨hAll, rfl⟩
    · rintro ⟨hAll, rfl⟩
      exact ⟨_, ⟨hAll, rfl⟩, rfl⟩
  · next hTies =>
    have hNone : c.kind.tiedAxes = [] := by
      revert hTies
      cases c.kind <;> simp [ConstraintKind.tiesCoordinates, ConstraintKind.tiedAxes]
    simp only [Constraint.ties, hNone, List.map_nil, hTies, Bool.false_eq_true, false_implies,
      true_and, Except.ok.injEq]
    exact eq_comm

theorem pinConstraint_eq_ok_iff (slots : Slots α) (c : Constraint α) (slots' : Slots α) :
    pinConstraint g slots c = .ok slots' ↔
      (c.kind = .fixed → ∀ p ∈ c.points, (g.pointIndex? p).isSome) ∧
        slots' = (c.pins g).foldl Slots.pin slots := by
  rw [pinConstraint, Constraint.pins]
  split
  · next hFixed =>
    simp only [map_eq_ok_iff, Constraint.locate_eq_ok_iff, hFixed, true_implies]
    constructor
    · rintro ⟨_, ⟨hAll, rfl⟩, rfl⟩
      exact ⟨hAll, rfl⟩
    · rintro ⟨hAll, rfl⟩
      exact ⟨_, ⟨hAll, rfl⟩, rfl⟩
  · next hFixed =>
    simp only [hFixed, false_implies, true_and, Except.ok.injEq]
    exact eq_comm

/-! ## Success -/

/-- All lists of points that constraints tie. -/
def ties (g : Geometry α) (constraints : List (Constraint α)) : List (List Nat × Axis) :=
  constraints.flatMap (·.ties g)

/-- All slots that constraints pin, in order. -/
def pins (g : Geometry α) (constraints : List (Constraint α)) : List Nat :=
  constraints.flatMap (·.pins g)

theorem foldlM_tie_eq_ok_iff [Zero α] {active : Option Nat} (constraints : List (Constraint α))
    (slots slots' : Slots α) : constraints.foldlM (tie g active) slots = .ok slots' ↔
      (∀ c ∈ constraints, c.kind.tiesCoordinates = true →
        ∀ p ∈ c.points, (g.pointIndex? p).isSome) ∧
        slots' = slots.unifyAll active (ties g constraints) := by
  rw [foldlM_eq_ok_iff tie_eq_ok_iff, Slots.unifyAll, ties, List.foldl_flatMap]
  rfl

theorem foldlM_pinConstraint_eq_ok_iff (constraints : List (Constraint α))
    (slots slots' : Slots α) : constraints.foldlM (pinConstraint g) slots = .ok slots' ↔
      (∀ c ∈ constraints, c.kind = .fixed → ∀ p ∈ c.points, (g.pointIndex? p).isSome) ∧
        slots' = (pins g constraints).foldl Slots.pin slots := by
  rw [foldlM_eq_ok_iff pinConstraint_eq_ok_iff, pins, List.foldl_flatMap]

theorem optionMapM_locate_eq_ok_iff (p : Option PointRef) (i : Option Nat) :
    p.mapM g.locate = .ok i ↔
      (∀ q, p = some q → (g.pointIndex? q).isSome) ∧ i = p.bind g.pointIndex? := by
  cases p with
  | none =>
    simp only [reduceCtorEq, false_implies, implies_true, true_and]
    exact ⟨fun h => (Except.ok.inj h).symm, fun h => congrArg Except.ok h.symm⟩
  | some q =>
    show (some <$> g.locate q) = .ok i ↔ _
    simp only [Option.some.injEq, forall_eq', Option.bind_some]
    rw [Geometry.locate]
    cases g.pointIndex? q with
    | none => simp [Functor.map, Except.map]
    | some j =>
      simp only [Functor.map, Except.map, Except.ok.injEq, Option.isSome_some, true_and]
      exact eq_comm

/-- The slots after tying and pinning. -/
def settled [Zero α] (g : Geometry α) (constraints : List (Constraint α)) (active : Option Nat) :
    Slots α :=
  (pins g constraints).foldl Slots.pin
    ((Slots.initial g).unifyAll active (ties g constraints))

/-- The linkage that a build gives if it succeeds. -/
def assemble [Zero α] (g : Geometry α) (constraints : List (Constraint α))
    (active : Option Nat) : Linkage α where
  slots := Slots.markOrphans (2 * g.pointCount)
    ((bothSlots active.toList).foldl Slots.lead (settled g constraints active))
  pointCount := g.pointCount
  arcCount := g.arcs.length

/-- **A build succeeds exactly when the points that it looks up exist.** -/
theorem build_eq_ok_iff [Zero α] (constraints : List (Constraint α)) (active : Option PointRef)
    (l : Linkage α) : build g constraints active = .ok l ↔
      (∀ p, active = some p → (g.pointIndex? p).isSome) ∧ (∀ c ∈ constraints, c.Located g) ∧
        l = assemble g constraints (active.bind g.pointIndex?) := by
  simp only [build, bind_eq_ok_iff, optionMapM_locate_eq_ok_iff, foldlM_tie_eq_ok_iff,
    foldlM_pinConstraint_eq_ok_iff]
  constructor
  · rintro ⟨_, ⟨hActive, rfl⟩, _, ⟨hTied, rfl⟩, _, ⟨hPinned, rfl⟩, hl⟩
    refine ⟨hActive, fun c hc hKind => ?_, (Except.ok.inj hl).symm⟩
    exact hKind.elim (hTied c hc) (hPinned c hc)
  · rintro ⟨hActive, hLocated, rfl⟩
    exact ⟨_, ⟨hActive, rfl⟩, _, ⟨fun c hc hKind => hLocated c hc (Or.inl hKind), rfl⟩, _,
      ⟨fun c hc hKind => hLocated c hc (Or.inr hKind), rfl⟩, rfl⟩

/-! ## The slots of a geometry -/

theorem length_initial (g : Geometry α) : (Slots.initial g).length = 2 * g.pointCount := by
  rw [Slots.initial, List.length_flatMap, ← g.length_points]
  simp [Nat.mul_comm]

theorem getElem?_initial (g : Geometry α) (s : Nat) :
    (Slots.initial g)[s]? =
      (g.pointAt? (s / 2)).map fun p => if s % 2 = 0 then ⟨.base, p.x⟩ else ⟨.base, p.y⟩ := by
  rw [Slots.initial, getElem?_flatMap_pair, ← g.getElem?_points, Option.map_map]
  rfl

theorem link?_initial {s : Nat} (hs : s < 2 * g.pointCount) :
    (Slots.initial g).link? s = some .base := by
  obtain ⟨p, hp⟩ := Option.isSome_iff_exists.mp ((g.isSome_pointAt? (s / 2)).mpr (by omega))
  rw [Slots.link?, getElem?_initial, hp, Option.map_some, Option.map_some]
  split <;> rfl

theorem value?_initial (g : Geometry α) (axis : Axis) (i : Nat) :
    (Slots.initial g).value? (axis.slot i) = (g.pointAt? i).map axis.coordinate := by
  rw [Slots.value?, getElem?_initial, Option.map_map]
  cases axis with
  | x =>
    have hDiv : Axis.x.slot i / 2 = i := by rw [Axis.slot]; omega
    have hMod : Axis.x.slot i % 2 = 0 := by rw [Axis.slot]; omega
    rw [hDiv, hMod]
    rfl
  | y =>
    have hDiv : Axis.y.slot i / 2 = i := by rw [Axis.slot]; omega
    have hMod : Axis.y.slot i % 2 = 1 := by rw [Axis.slot]; omega
    rw [hDiv, hMod]
    rfl

theorem holds_initial {s : Nat} (hs : s < 2 * g.pointCount) : (Slots.initial g).Holds s :=
  Or.inl (link?_initial hs)

theorem linked_initial (g : Geometry α) : (Slots.initial g).Linked (2 * g.pointCount) := by
  refine ⟨Nat.le_of_eq (length_initial g).symm, ?_, ?_⟩
  · intro s t hLink
    by_cases hs : s < 2 * g.pointCount
    · exact absurd hLink ((holds_initial hs).not_to t)
    · rw [Slots.link?_eq_none_iff.mpr (by rw [length_initial]; omega)] at hLink
      exact absurd hLink (by simp)
  · intro s hs
    simp [link?_initial hs]

theorem slot_lt {axis : Axis} {i : Nat} (hi : i < g.pointCount) :
    axis.slot i < 2 * g.pointCount := by
  cases axis <;> simp only [Axis.slot] <;> omega

variable {constraints : List (Constraint α)}

theorem bounded_ties (g : Geometry α) (constraints : List (Constraint α)) :
    Slots.Bounded (2 * g.pointCount) (ties g constraints) := by
  intro tie hTie i hi
  obtain ⟨c, _, hc⟩ := List.mem_flatMap.mp hTie
  obtain ⟨axis, _, rfl⟩ := List.mem_map.mp hc
  exact slot_lt (Constraint.indices_lt hi)

theorem pins_lt {u : Nat} (hu : u ∈ pins g constraints) : u < 2 * g.pointCount := by
  obtain ⟨c, _, hc⟩ := List.mem_flatMap.mp hu
  rw [Constraint.pins] at hc
  split at hc
  · obtain ⟨i, hi, hSlot⟩ := List.mem_flatMap.mp hc
    have hLt := Constraint.indices_lt hi
    rcases List.mem_cons.mp hSlot with rfl | hSlot
    · exact slot_lt hLt
    · obtain rfl := List.mem_singleton.mp hSlot
      exact slot_lt hLt
  · exact absurd hc (by simp)

/-! ## The slots of a linkage -/

section Assemble

variable [Zero α] {active : Option Nat}

/-- Two slots are tied together, directly or through others. -/
def Grouped (g : Geometry α) (constraints : List (Constraint α)) : Nat → Nat → Prop :=
  Relation.EqvGen (Slots.Tied (ties g constraints))

theorem linked_tied (g : Geometry α) (constraints : List (Constraint α)) (active : Option Nat) :
    ((Slots.initial g).unifyAll active (ties g constraints)).Linked (2 * g.pointCount) :=
  Slots.linked_unifyAll _ (linked_initial g) (bounded_ties g constraints)

theorem linked_settled : (settled g constraints active).Linked (2 * g.pointCount) :=
  (Slots.foldl_pin_kept _ (linked_tied g constraints active) fun _ hu => pins_lt hu).1

theorem representative_settled (s : Nat) : (settled g constraints active).representative s =
    ((Slots.initial g).unifyAll active (ties g constraints)).representative s :=
  (Slots.foldl_pin_kept _ (linked_tied g constraints active) fun _ hu => pins_lt hu).2.1 s

theorem link?_assemble_of_lt {s : Nat} (hs : s < 2 * g.pointCount) :
    (assemble g constraints active).slots.link? s = (settled g constraints active).link? s :=
  (Slots.link?_markOrphans_of_lt hs).trans ((Slots.foldl_lead_kept _ _).2.1 s)

theorem representative_assemble {s : Nat} (hs : s < 2 * g.pointCount) :
    (assemble g constraints active).representative s =
      ((Slots.initial g).unifyAll active (ties g constraints)).representative s := by
  rw [← representative_settled, representative]
  exact Slots.representative_congr (link?_assemble_of_lt hs)

theorem linked_assemble : (assemble g constraints active).slots.Linked (2 * g.pointCount) := by
  obtain ⟨hLen, hLink, _⟩ :=
    Slots.foldl_lead_kept (bothSlots active.toList) (settled g constraints active)
  exact (linked_settled.of_link?_eq hLen hLink).markOrphans

/-- **The groups of a linkage are the classes that its ties generate.** -/
theorem representative_assemble_eq_iff (active : Option Nat) {s t : Nat} (hs : s < 2 * g.pointCount)
    (ht : t < 2 * g.pointCount) : (assemble g constraints active).representative s =
      (assemble g constraints active).representative t ↔ Grouped g constraints s t := by
  rw [representative_assemble hs, representative_assemble ht]
  exact Slots.representative_unifyAll_eq_iff (linked_initial g)
    (fun s hs => (holds_initial hs).representative) (bounded_ties g constraints) hs ht

theorem link?_representative_eq_settled {s : Nat} (hs : s < 2 * g.pointCount) :
    (assemble g constraints active).slots.link?
        ((assemble g constraints active).representative s) =
      (settled g constraints active).link? ((settled g constraints active).representative s) := by
  obtain ⟨_, hLink, _⟩ :=
    Slots.foldl_lead_kept (bothSlots active.toList) (settled g constraints active)
  rw [representative_assemble hs, ← representative_settled, ← Slots.representative_congr (hLink s)]
  exact (Slots.link?_markOrphans_representative hs).trans (hLink _)

/-- A group with a pinned slot is constant. -/
theorem link?_representative_of_pinned (active : Option Nat) {s u : Nat} (hs : s < 2 * g.pointCount)
    (hu : u ∈ pins g constraints) (hGrouped : Grouped g constraints u s) :
    (assemble g constraints active).slots.link?
      ((assemble g constraints active).representative s) = some .fixed := by
  rw [← representative_assemble_eq_iff active (pins_lt hu) hs,
    representative_assemble (pins_lt hu), representative_assemble hs] at hGrouped
  rw [link?_representative_eq_settled hs, representative_settled]
  exact (Slots.link?_foldl_pin _ _ (linked_tied g constraints active) fun _ hv => pins_lt hv).1
    ⟨u, hu, hGrouped⟩

/-- A group without a pinned slot is variable. -/
theorem link?_representative_of_not_pinned {s : Nat} (hs : s < 2 * g.pointCount)
    (hNone : ∀ u ∈ pins g constraints, ¬ Grouped g constraints u s) :
    (assemble g constraints active).slots.link?
      ((assemble g constraints active).representative s) = some .base := by
  have hApart : ∀ u ∈ pins g constraints,
      ((Slots.initial g).unifyAll active (ties g constraints)).representative u ≠
        ((Slots.initial g).unifyAll active (ties g constraints)).representative s := by
    intro u hu hEq
    rw [← representative_assemble (pins_lt hu), ← representative_assemble hs] at hEq
    exact hNone u hu ((representative_assemble_eq_iff active (pins_lt hu) hs).mp hEq)
  rw [link?_representative_eq_settled hs, representative_settled, settled,
    (Slots.link?_foldl_pin _ _ (linked_tied g constraints active) fun _ hv => pins_lt hv).2 hApart]
  -- tying makes nothing constant, and a representative holds a value
  rcases (linked_tied g constraints active).holds_representative hs with
    hBase | hFixed
  · exact hBase
  · have hInitial := Slots.link?_of_unifyAll_fixed _ (linked_initial g)
      (bounded_ties g constraints) hFixed
    by_cases hLt : ((Slots.initial g).unifyAll active
        (ties g constraints)).representative s < 2 * g.pointCount
    · simp [link?_initial hLt] at hInitial
    · rw [Slots.link?_eq_none_iff.mpr (by rw [length_initial]; omega)] at hInitial
      exact absurd hInitial (by simp)

/-- **Every variable represents some point slot.** -/
theorem exists_representative_of_base {t : Nat}
    (ht : (assemble g constraints active).slots.link? t = some .base) :
    ∃ s, s < 2 * g.pointCount ∧ (assemble g constraints active).representative s = t := by
  by_cases hLt : t < 2 * g.pointCount
  · exact ⟨t, hLt, Slots.Holds.representative (Or.inl ht)⟩
  · by_contra hNone
    have hLen := Slots.lt_length_of_link? ht
    rw [assemble, Slots.length_markOrphans] at hLen
    have hOrphan : (assemble g constraints active).slots.link? t = some .orphan := by
      refine Slots.link?_markOrphans_of_no_link (by omega) hLen fun s hs hTo => hNone ⟨s, hs, ?_⟩
      refine Slots.representative_of_to ((link?_assemble_of_lt hs).trans ?_)
      rwa [(Slots.foldl_lead_kept _ _).2.1] at hTo
    rw [hOrphan] at ht
    exact absurd ht (by simp)

/-- **The last pinned slot of a group gives the group its value.** -/
theorem value?_representative_last {before after : List Nat} {u : Nat}
    (hPins : pins g constraints = before ++ u :: after)
    (hLast : ∀ v ∈ after, ¬ Grouped g constraints v u) :
    (assemble g constraints active).slots.value?
        ((assemble g constraints active).representative u) =
      (Slots.initial g).value? u := by
  have hMem : ∀ v ∈ before ++ u :: after, v ∈ pins g constraints := fun v hv => hPins ▸ hv
  have hu := pins_lt (hMem u (by simp))
  have hFixed := link?_representative_of_pinned active hu (hMem u (by simp)) (.refl u)
  rw [link?_representative_eq_settled hu] at hFixed
  have hLater : ∀ v ∈ after,
      ((Slots.initial g).unifyAll active (ties g constraints)).representative v ≠
        ((Slots.initial g).unifyAll active (ties g constraints)).representative u := by
    intro v hv hEq
    have hvLt := pins_lt (hMem v (by simp [hv]))
    rw [← representative_assemble hvLt, ← representative_assemble hu] at hEq
    exact hLast v hv ((representative_assemble_eq_iff active hvLt hu).mp hEq)
  rw [assemble, Slots.value?_markOrphans, ← assemble, representative_assemble hu,
    ← representative_settled, (Slots.foldl_lead_kept _ _).2.2 _ hFixed, representative_settled,
    settled, hPins, Slots.value?_foldl_pin_last (linked_tied g constraints active)
      (fun v hv => pins_lt (hMem v hv)) hLater]
  exact Slots.value?_unifyAll hu _ (linked_initial g) (bounded_ties g constraints)

end Assemble

end Linkage

end PlaneSketch
