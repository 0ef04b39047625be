import Mathlib.Tactic.Ring
import PlaneSketch.Constraint.Residual
import PlaneSketch.Proofs.Plane.Motion

/-!
# Equations do not see the frame

A rigid motion of a whole sketch leaves the value of every equation as it was.

* `Residual.InRange`: the indices of an equation are those of entities, so that it has a value
  (`Residual.isSome_value?_iff`).
* `Residual.value?_moved`: **an equation has the same value on a geometry and on the moved one**,
  or on neither.
-/

namespace PlaneSketch

open Scalar (machineEpsilon)

namespace Geometry

variable (m : Motion) (g : Geometry ℝ)

/-- All points are moved; the offsets of arcs stay. -/
noncomputable def moved : Geometry ℝ := g.mapPoints fun _ => m.apply

theorem getElem?_segments_moved (i : Nat) : (g.moved m).segments[i]? =
    g.segments[i]?.map fun s => ⟨s.id, s.figure.moved m⟩ :=
  List.getElem?_mapIdx

theorem getElem?_arcs_moved (i : Nat) : (g.moved m).arcs[i]? =
    g.arcs[i]?.map fun a => ⟨a.id, a.figure.moved m⟩ :=
  List.getElem?_mapIdx

end Geometry

namespace Residual

/-- Every index of the equation is the place of a segment or of an arc, whichever it is to be. -/
def InRange {α : Type} (g : Geometry α) : Residual α → Prop
  | parallel a b => a < g.segments.length ∧ b < g.segments.length
  | perpendicular a b => a < g.segments.length ∧ b < g.segments.length
  | equalLength a b => a < g.segments.length ∧ b < g.segments.length
  | equalRadius a b => a < g.arcs.length ∧ b < g.arcs.length
  | segmentLength s _ => s < g.segments.length
  | arcRadius a _ => a < g.arcs.length
  | arcSegmentTangent a s => a < g.arcs.length ∧ s < g.segments.length
  | arcArcTangent a b => a < g.arcs.length ∧ b < g.arcs.length
  | concentric a b => a < g.arcs.length ∧ b < g.arcs.length

theorem isSome_value?_iff {α : Type} [Scalar α] (g : Geometry α) (r : Residual α) :
    (r.value? g).isSome ↔ r.InRange g := by
  cases r <;> simp [value?, InRange, Option.isSome_iff_exists, Option.bind_eq_some_iff,
    List.getElem?_eq_some_iff]

theorem tangentGap_moved (m : Motion) (a : Arc ℝ) (s : Segment ℝ) :
    tangentGap (a.moved m) (s.moved m) = tangentGap a s := by
  have hLine : (s.moved m).line.distance? (m.apply a.center) = s.line.distance? a.center :=
    Line.distance?_apply m s.p1 s.p2 a.center
  have hPoint : distance (m.apply a.center) (s.moved m).p1 = distance a.center s.p1 :=
    m.distance_apply _ _
  rw [tangentGap, Arc.center_moved, Arc.radius_moved, hLine, hPoint, tangentGap]

/-- **An equation does not see a rigid motion.** -/
theorem value?_moved_eq (m : Motion) (g : Geometry ℝ) (r : Residual ℝ) :
    r.value? (g.moved m) = r.value? g := by
  cases r
  all_goals
    simp only [value?, g.getElem?_segments_moved, g.getElem?_arcs_moved, Option.bind_map,
      Option.bind_eq_bind, Function.comp_def, Segment.vector_moved, Vec2.cross_rotate,
      Vec2.dot_rotate, Segment.length_moved, Arc.radius_moved, Arc.center_moved, m.distance_apply,
      tangentGap_moved]

/-- **Every equation whose indices are in range has a value, and keeps it under every rigid
motion**, collapsed segments and chords included. -/
theorem value?_moved (m : Motion) {g : Geometry ℝ} {r : Residual ℝ} (h : r.InRange g) :
    ∃ v, r.value? g = some v ∧ r.value? (g.moved m) = some v := by
  obtain ⟨v, hv⟩ := Option.isSome_iff_exists.mp ((isSome_value?_iff g r).mpr h)
  exact ⟨v, hv, (value?_moved_eq m g r).trans hv⟩

/-- A collapsed segment, and an arc that is centred at the origin when its chord, of twice the
half-width, is too short to have a normal. -/
noncomputable def collapsed (halfWidth : ℝ) : Geometry ℝ :=
  ⟨[⟨⟨0⟩, ⟨0, 1⟩, ⟨0, 1⟩⟩], [⟨⟨1⟩, ⟨-halfWidth, 0⟩, ⟨halfWidth, 0⟩, 1⟩]⟩

theorem value?_collapsed {halfWidth : ℝ} (h : 0 ≤ halfWidth)
    (hShort : 2 * halfWidth ≤ machineEpsilon) :
    (arcSegmentTangent 0 0).value? (collapsed halfWidth) = some (1 - halfWidth) := by
  have hChord : distance (⟨-halfWidth, 0⟩ : Vec2 ℝ) ⟨halfWidth, 0⟩ = 2 * halfWidth := by
    refine Vec2.norm_of_normSq_eq (by linarith) ?_
    rw [Vec2.normSq_eq, Vec2.sub_x, Vec2.sub_y]
    ring
  have hNormal : Arc.normal (⟨⟨-halfWidth, 0⟩, ⟨halfWidth, 0⟩, 1⟩ : Arc ℝ) = 0 := by
    rw [Arc.normal, Vec2.unit?, Vec2.norm_quarterCcw, ← distance_eq, hChord, if_pos hShort]
    rfl
  have hCenter : Arc.center (⟨⟨-halfWidth, 0⟩, ⟨halfWidth, 0⟩, 1⟩ : Arc ℝ) = ⟨0, 0⟩ := by
    rw [Arc.center, hNormal, Arc.chordMidpoint]
    exact Vec2.ext (by simp) (by simp)
  have hRadius : Arc.radius (⟨⟨-halfWidth, 0⟩, ⟨halfWidth, 0⟩, 1⟩ : Arc ℝ) = halfWidth := by
    rw [Arc.radius, hCenter]
    exact Vec2.norm_of_normSq_eq h (by simp [Vec2.normSq_eq])
  show some (tangentGap (⟨⟨-halfWidth, 0⟩, ⟨halfWidth, 0⟩, 1⟩ : Arc ℝ) ⟨⟨0, 1⟩, ⟨0, 1⟩⟩) = _
  rw [tangentGap, hCenter, hRadius, Segment.line, Line.distance?_through, if_pos]
  · exact congrArg (fun k => some (k - halfWidth))
      (Vec2.norm_of_normSq_eq zero_le_one (by simp [Vec2.normSq_eq]))
  · rw [distance_self, Scalar.machineEpsilon_real]
    norm_num

theorem value?_moved_collapsed : (arcSegmentTangent 0 0).InRange (collapsed (1 / 2 ^ 60)) ∧
    (arcSegmentTangent 0 0).value? (collapsed (1 / 2 ^ 60)) = some (1 - 1 / 2 ^ 60) ∧
    (arcSegmentTangent 0 0).value? ((collapsed (1 / 2 ^ 60)).moved ⟨Real.pi / 2, ⟨1, 2⟩⟩) =
      some (1 - 1 / 2 ^ 60) := by
  have hInRange : (arcSegmentTangent 0 0).InRange (collapsed (1 / 2 ^ 60)) :=
    ⟨Nat.one_pos, Nat.one_pos⟩
  have hValue : (arcSegmentTangent 0 0).value? (collapsed (1 / 2 ^ 60)) =
      some (1 - 1 / 2 ^ 60) := by
    refine value?_collapsed (by norm_num) ?_
    rw [Scalar.machineEpsilon_real]
    norm_num
  obtain ⟨v, hv, hMoved⟩ := value?_moved ⟨Real.pi / 2, ⟨1, 2⟩⟩ hInRange
  obtain rfl := Option.some.inj (hValue.symm.trans hv)
  exact ⟨hInRange, hv, hMoved⟩

end Residual

end PlaneSketch
