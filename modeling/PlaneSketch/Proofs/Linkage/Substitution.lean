import PlaneSketch.Proofs.Linkage.Leading

/-!
# What substitution does

Before any variable has changed, the groups are put in place: `Linkage.substituted`.

* `coordinateAt?_substituted`: a coordinate that is written is what its class holds.
* `substituted_eq_iff`: **substitution moves nothing exactly when every class agrees already.**
* `substitutes_of_build`: substitution is a projection, and each class goes where one of its members
  was.
-/

namespace PlaneSketch

namespace Linkage

variable {α : Type} {g : Geometry α} {constraints : List (Constraint α)}
  {active : Option PointRef} {l : Linkage α}

theorem IsSlot.coordinate?_eq {axis : Axis} {p : PointRef} {s : Nat} (h : IsSlot g axis p s) :
    g.coordinate? axis p = g.coordinateAt? s := by
  obtain ⟨i, hi, rfl⟩ := h
  rw [Geometry.coordinate?_of_pointIndex? hi, Geometry.coordinateAt?_slot]

/-- If the points of every tie agree, so do the members of every class. -/
theorem SameCoordinate.coordinateAt?_eq (hTies : ∀ c ∈ constraints, ∀ axis, c.kind.Ties axis →
      ∀ p ∈ c.points, ∀ q ∈ c.points, g.coordinate? axis p = g.coordinate? axis q) {s t : Nat}
    (h : SameCoordinate g constraints s t) : g.coordinateAt? s = g.coordinateAt? t := by
  induction h with
  | rel s t hTied =>
    obtain ⟨c, hc, axis, hAxis, ⟨p, hp, hs⟩, ⟨q, hq, ht⟩⟩ := hTied
    rw [← hs.coordinate?_eq, ← ht.coordinate?_eq]
    exact hTies c hc axis hAxis p hp q hq
  | refl s => rfl
  | symm s t _ ih => exact ih.symm
  | trans s t u _ _ ih ih' => exact ih.trans ih'

/-- What substitution makes of a geometry. -/
structure Substitutes (g : Geometry α) (constraints : List (Constraint α))
    (active : Option PointRef) (s : Geometry α) : Prop where
  /-- All members of a class are put where one of them was. -/
  seed : ∀ i < 2 * g.pointCount, ∃ u v, SameCoordinate g constraints i u ∧
    g.coordinateAt? u = some v ∧ ∀ j, SameCoordinate g constraints i j → s.coordinateAt? j = some v
  /-- This one is the dragged point, if it is a member and none is held. -/
  active : ∀ p axis i, active = some p → IsSlot g axis p i →
    (∀ j, SameCoordinate g constraints i j → ¬ Held g constraints j) →
    ∀ j, SameCoordinate g constraints i j → s.coordinateAt? j = g.coordinateAt? i
  offsets : s.offsets = g.offsets
  eq_iff : s = g ↔ ∀ i j, SameCoordinate g constraints i j → g.coordinateAt? i = g.coordinateAt? j
  satisfied : (∀ c ∈ constraints, ∀ axis, c.kind.Ties axis → ∀ p ∈ c.points, ∀ q ∈ c.points,
    g.coordinate? axis p = g.coordinate? axis q) → s = g

section Built

variable [Zero α]

/-- A coordinate that is written is what its class holds. -/
theorem coordinateAt?_substituted (h : build g constraints active = .ok l) {s : Nat}
    (hs : s < 2 * g.pointCount) :
    (l.substituted g).coordinateAt? s = l.slots.value? (l.representative s) := by
  rw [substituted, coordinateAt?_scatter h (.refl g) hs, source?_gather h g hs]

theorem offsets_substituted (l : Linkage α) (g : Geometry α) :
    (l.substituted g).offsets = g.offsets := by
  rw [substituted, offsets_scatter_of_size g (size_gather l g), toList_gather]
  exact List.drop_left' (by rw [List.length_map, length_filter_base])

/-- **Substitution moves nothing exactly when every class agrees already.** -/
theorem substituted_eq_iff (h : build g constraints active = .ok l) : l.substituted g = g ↔
    ∀ s t, SameCoordinate g constraints s t → g.coordinateAt? s = g.coordinateAt? t := by
  constructor
  · intro hSame s t hClass
    rw [← hSame]
    exact coordinateAt?_scatter_congr h (l.gather g) hClass
  · intro hAgree
    have hIds : (l.substituted g).SameIds g := sameIds_scatter l g _
    refine eq_of_coordinateAt? hIds (fun s hs => ?_) (offsets_substituted l g)
    rw [hIds.pointCount] at hs
    rw [coordinateAt?_substituted h hs, value?_representative_of_agree h hAgree hs]

/-- A class without a held coordinate is put where the dragged point was dropped. -/
theorem coordinateAt?_substituted_of_active {p : PointRef}
    (h : build g constraints (some p) = .ok l) {axis : Axis} {s t : Nat} (hs : IsSlot g axis p s)
    (hFree : ∀ t, SameCoordinate g constraints s t → ¬ Held g constraints t)
    (hSame : SameCoordinate g constraints s t) :
    (l.substituted g).coordinateAt? t = g.coordinateAt? s := by
  have hBase := link?_representative_of_not_held h hs.lt hFree
  rw [substituted, ← coordinateAt?_scatter_congr h (l.gather g) hSame, ← substituted,
    coordinateAt?_substituted h hs.lt]
  obtain ⟨i, hi, rfl⟩ := hs
  exact value?_representative_of_active h hi hBase

/-- **Substitution is a projection with a definite seed.**  It puts all members of a class where one
of them was, the dragged point before the others, moves nothing exactly when every class agrees
already, and does nothing when it is done again, whichever point is dragged then. -/
theorem substitutes_of_build (h : build g constraints active = .ok l) :
    Substitutes g constraints active (l.substituted g) ∧
      ∀ active' : Option PointRef, (∀ p, active' = some p → (g.pointIndex? p).isSome) →
        ∃ l', build (l.substituted g) constraints active' = .ok l' ∧
          l'.substituted (l.substituted g) = l.substituted g := by
  constructor
  · refine ⟨fun s hs => ?_, ?_, offsets_substituted l g, substituted_eq_iff h, fun hTies => ?_⟩
    · obtain ⟨u, hSame, hValue⟩ := exists_seed_of_build h hs
      obtain ⟨v, hv⟩ :=
        Slots.value?_isSome ((linked_of_build h).representative_lt_length hs)
      refine ⟨u, v, hSame, hValue.symm.trans hv, fun t hClass => ?_⟩
      rw [substituted, ← coordinateAt?_scatter_congr h (l.gather g) hClass, ← substituted,
        coordinateAt?_substituted h hs]
      exact hv
    · rintro p axis s rfl hs hFree t hSame
      exact coordinateAt?_substituted_of_active h hs hFree hSame
    · rw [substituted_eq_iff h]
      exact fun s t hSame => hSame.coordinateAt?_eq hTies
  · intro active' hActive
    obtain ⟨l', h', -, hGather, hScatter⟩ :=
      rebuild_scatter h (size_gather_of_build h (.refl g)) hActive
    refine ⟨l', h', ?_⟩
    rw [substituted, substituted, hGather, hScatter]

/-- Without the fixed joint, all of the first segment is laid at the height of the dragged end. -/
theorem substitutes_of_build_threeSegments :
    ∃ l, build threeSegments threeJoints.dropLast (some (.stop ⟨1⟩)) = .ok l ∧
      Substitutes threeSegments threeJoints.dropLast (some (.stop ⟨1⟩))
        (l.substituted threeSegments) ∧
      (l.substituted threeSegments).coordinate? .y (.start ⟨0⟩) = some 2 ∧
      ∃ l', build (l.substituted threeSegments) threeJoints.dropLast none = .ok l' ∧
        l'.substituted (l.substituted threeSegments) = l.substituted threeSegments := by
  obtain ⟨l, hl⟩ : ∃ l, build threeSegments threeJoints.dropLast (some (.stop ⟨1⟩)) = .ok l :=
    ⟨_, rfl⟩
  obtain ⟨hSubstitutes, hAgain⟩ := substitutes_of_build hl
  refine ⟨l, hl, hSubstitutes, ?_, hAgain none fun p hp => absurd hp (by simp)⟩
  obtain rfl := Except.ok.inj hl
  rfl

end Built

end Linkage

end PlaneSketch
