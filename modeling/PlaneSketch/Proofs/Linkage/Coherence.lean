import PlaneSketch.Proofs.Linkage.RoundTrip

/-!
# Coherence of a linkage

Nothing is checked when values go through a linkage: a representative is read as if it held a
value, an index as if it lay in the vector of variables.  This is what makes it right.

* `orphan_iff_of_build`: the orphans are the auxiliary slots to which no point slot links.
* `representative_x_ne_y`: the two axes never meet in a group.
* `freeBefore_inj`: no two slots share a variable; with `exists_freeBefore_eq` the variables are
  numbered without gaps.
* `coherent_of_build`: **all of it holds of every linkage that a build gives.**
-/

namespace PlaneSketch

/-- A kept element counts for every place behind it. -/
theorem countP_take_lt {β : Type} {p : β → Bool} {l : List β} {s t : Nat} {x : β}
    (hx : l[s]? = some x) (hp : p x = true) (hst : s < t) :
    (l.take s).countP p < (l.take t).countP p := by
  have hTake : l.take (s + 1) = l.take s ++ [x] := by rw [List.take_add_one, hx, Option.toList_some]
  have hNext : (l.take (s + 1)).countP p = (l.take s).countP p + 1 := by
    rw [hTake, List.countP_append, List.countP_singleton, if_pos hp]
  have hMono : (l.take (s + 1)).countP p ≤ (l.take t).countP p :=
    (List.take_sublist_take_left hst).countP_le
  omega

namespace Linkage

variable {α : Type} {g : Geometry α} {constraints : List (Constraint α)}
  {active : Option PointRef} {l : Linkage α}

/-! ## Variables -/

theorem freeBefore_lt_freeBefore {s t : Nat} (hs : l.slots.link? s = some .base) (hst : s < t) :
    l.freeBefore s < l.freeBefore t := by
  rw [Slots.link?, Option.map_eq_some_iff] at hs
  obtain ⟨slot, hSlot, hBase⟩ := hs
  exact countP_take_lt hSlot (decide_eq_true hBase) hst

/-- **No two slots share a variable.** -/
theorem freeBefore_inj {s t : Nat} (hs : l.slots.link? s = some .base)
    (ht : l.slots.link? t = some .base) (h : l.freeBefore s = l.freeBefore t) : s = t := by
  rcases Nat.lt_trichotomy s t with hst | hst | hst
  · exact absurd h (Nat.ne_of_lt (freeBefore_lt_freeBefore hs hst))
  · exact hst
  · exact absurd h.symm (Nat.ne_of_lt (freeBefore_lt_freeBefore ht hst))

/-- A slot reads a variable exactly if its representative holds one. -/
theorem source?_eq_free_iff {s i : Nat} : l.source? s = some (.free i) ↔
    l.slots.link? (l.representative s) = some .base ∧ l.freeBefore (l.representative s) = i := by
  constructor
  · intro h
    have hBase : l.slots.link? (l.representative s) = some .base := by
      rw [source?, Option.map_eq_some_iff] at h
      obtain ⟨slot, hSlot, hFree⟩ := h
      rw [Slots.link?, hSlot, Option.map_some]
      split at hFree
      · next hBase => rw [hBase]
      · exact absurd hFree (by simp)
    rw [source?_of_base hBase, Option.some.injEq, Source.free.injEq] at h
    exact ⟨hBase, h⟩
  · rintro ⟨hBase, rfl⟩
    exact source?_of_base hBase

/-- **Slots that read one variable have one representative**, and the other way round. -/
theorem source?_eq_free_iff_of_source? {s t i : Nat} (hs : l.source? s = some (.free i)) :
    l.source? t = some (.free i) ↔ l.representative s = l.representative t := by
  obtain ⟨hBase, hIndex⟩ := source?_eq_free_iff.mp hs
  constructor
  · intro ht
    obtain ⟨hBase', hIndex'⟩ := source?_eq_free_iff.mp ht
    exact freeBefore_inj hBase hBase' (hIndex.trans hIndex'.symm)
  · intro hRep
    rw [← source?_congr hRep, hs]

/-! ## Slots of a build -/

section Built

variable [Zero α]

/-- **An auxiliary slot is an orphan exactly if no point slot links to it.** -/
theorem orphan_iff_of_build (h : build g constraints active = .ok l) {t : Nat}
    (hAux : 2 * g.pointCount ≤ t) (hLength : t < l.slots.length) :
    l.slots.link? t = some .orphan ↔
      ∀ s < 2 * g.pointCount, l.slots.link? s ≠ some (.to t) := by
  constructor
  · intro hOrphan s _ hTo
    obtain ⟨-, -, hHolds⟩ := (linked_of_build h).target hTo
    rcases hHolds with hHolds | hHolds <;> simp [hOrphan] at hHolds
  · intro hNone
    rw [eq_assemble_of_build h, assemble] at hLength hNone ⊢
    rw [Slots.length_markOrphans] at hLength
    refine Slots.link?_markOrphans_of_no_link hAux hLength fun s hs hTo => hNone s hs ?_
    exact (Slots.link?_markOrphans_of_lt hs).trans hTo

/-- **The two axes never meet**: what is tied is tied along an axis. -/
theorem representative_x_ne_y (h : build g constraints active = .ok l) {i j : Nat}
    (hi : i < g.pointCount) (hj : j < g.pointCount) :
    l.representative (Axis.x.slot i) ≠ l.representative (Axis.y.slot j) := by
  intro hRep
  have hSame := (representative_eq_iff h (slot_lt hi) (slot_lt hj)).mp hRep
  rcases sameGroup_of_sameCoordinate hSame with
    hSlot | ⟨axis, p, q, ⟨_, _, hx⟩, ⟨_, _, hy⟩, -⟩
  · exact absurd (Axis.slot_inj hSlot).1 (by decide)
  · obtain ⟨rfl, -⟩ := Axis.slot_inj hx
    exact absurd (Axis.slot_inj hy).1 (by decide)

/-- A point slot reads a variable, or the constant that its representative holds. -/
theorem source?_cases (h : build g constraints active = .ok l) {s : Nat}
    (hs : s < 2 * g.pointCount) : (∃ i, l.source? s = some (.free i)) ∨
      ∃ v, l.slots.link? (l.representative s) = some .fixed ∧
        l.slots.value? (l.representative s) = some v ∧ l.source? s = some (.constant v) := by
  have hLinked := linked_of_build h
  rcases hLinked.holds_representative hs with hBase | hFixed
  · exact Or.inl ⟨_, source?_of_base hBase⟩
  · obtain ⟨v, hv⟩ := Slots.value?_isSome (hLinked.representative_lt_length hs)
    exact Or.inr ⟨v, hFixed, hv, source?_of_fixed hFixed hv⟩

/-- Every variable but the offsets is read by some point slot. -/
theorem exists_source?_eq_free (h : build g constraints active = .ok l) {i : Nat}
    (hi : i < l.freeCount) : ∃ s < 2 * g.pointCount, l.source? s = some (.free i) := by
  obtain ⟨t, hBase, rfl⟩ := exists_freeBefore_eq hi
  obtain ⟨s, hs, rfl⟩ := exists_representative_of_build h hBase
  exact ⟨s, hs, source?_of_base hBase⟩

end Built

/-! ## All at once -/

/-- What reading and writing through a linkage relies on. -/
structure Coherent (l : Linkage α) (g : Geometry α) : Prop where
  /-- A link leads in one step to an auxiliary slot that holds a variable or a constant. -/
  target : ∀ s t, l.slots.link? s = some (.to t) →
    2 * g.pointCount ≤ t ∧ t < l.slots.length ∧
      (l.slots.link? t = some .base ∨ l.slots.link? t = some .fixed)
  orphan : ∀ t, 2 * g.pointCount ≤ t → t < l.slots.length →
    (l.slots.link? t = some .orphan ↔ ∀ s < 2 * g.pointCount, l.slots.link? s ≠ some (.to t))
  apart : ∀ i < g.pointCount, ∀ j < g.pointCount,
    l.representative (Axis.x.slot i) ≠ l.representative (Axis.y.slot j)
  source : ∀ s < 2 * g.pointCount, (∃ i, l.source? s = some (.free i)) ∨
    ∃ v, l.slots.link? (l.representative s) = some .fixed ∧
      l.slots.value? (l.representative s) = some v ∧ l.source? s = some (.constant v)
  index_lt : ∀ s i, l.source? s = some (.free i) → i < l.freeCount
  /-- Slots read one variable exactly if they share a representative. -/
  index_eq_iff : ∀ s t i, l.source? s = some (.free i) →
    (l.source? t = some (.free i) ↔ l.representative s = l.representative t)
  index_hit : ∀ i < l.freeCount, ∃ s < 2 * g.pointCount, l.source? s = some (.free i)
  /-- The vector of variables has one entry for each, also at another geometry with these arcs. -/
  size_gather : ∀ g' : Geometry α, g'.arcs.length = g.arcs.length →
    (l.gather g').size = l.degreesOfFreedom
  /-- The entry of a variable is what the representative of its readers holds. -/
  entry_gather : ∀ (g' : Geometry α) (s i : Nat), l.source? s = some (.free i) →
    ∃ v, l.slots.value? (l.representative s) = some v ∧ (l.gather g')[i]? = some v

/-- **Every linkage that a build gives is coherent.** -/
theorem coherent_of_build [Zero α] (h : build g constraints active = .ok l) : l.Coherent g where
  target s t hTo := by
    obtain ⟨-, hAux, hHolds⟩ := (linked_of_build h).target hTo
    exact ⟨hAux, hHolds.lt_length, hHolds⟩
  orphan t hAux hLength := orphan_iff_of_build h hAux hLength
  apart i hi j hj := representative_x_ne_y h hi hj
  source s hs := source?_cases h hs
  index_lt s i hs := by
    obtain ⟨hBase, rfl⟩ := source?_eq_free_iff.mp hs
    exact freeBefore_lt hBase
  index_eq_iff s t i hs := source?_eq_free_iff_of_source? hs
  index_hit i hi := exists_source?_eq_free h hi
  size_gather g' hArcs := by
    rw [Linkage.size_gather, degreesOfFreedom, arcCount_of_build h, hArcs]
  entry_gather g' s i hs := by
    obtain ⟨hBase, rfl⟩ := source?_eq_free_iff.mp hs
    obtain ⟨v, hv⟩ := Slots.value?_isSome (Slots.lt_length_of_link? hBase)
    exact ⟨v, hv, (getElem?_gather g' hBase).trans hv⟩

/-- Of the three segments the joint is constant, and merging its groups leaves two orphans; the
variables are the start of the first one along the axis and the loose end of the last one. -/
theorem coherent_of_build_threeSegments :
    ∃ l, build threeSegments threeJoints (some (.start ⟨0⟩)) = .ok l ∧
      l.Coherent threeSegments ∧ l.freeCount = 3 ∧
      l.slots.link? 14 = some .orphan ∧ l.slots.link? 15 = some .orphan ∧
      l.source? (Axis.x.slot 5) = some (.free 1) ∧ (l.gather threeSegments)[1]? = some 40 := by
  obtain ⟨l, hl⟩ : ∃ l, build threeSegments threeJoints (some (.start ⟨0⟩)) = .ok l := ⟨_, rfl⟩
  refine ⟨l, hl, coherent_of_build hl, ?_⟩
  rw [eq_assemble_of_build hl]
  exact ⟨rfl, rfl, rfl, rfl, rfl⟩

end Linkage

end PlaneSketch
