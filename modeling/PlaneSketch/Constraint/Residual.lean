import PlaneSketch.Constraint.Store

/-!
# Residual equations

A constraint whose kind has an equation is bound to the indices of its operands; the bound
equation then evaluates on any geometry with the same entities, and the constraint holds where
the value is zero.

* `Residual.bind`: resolves a kind and two operands against a geometry.
* `Residual.value?`: the value of the equation, none when an index is out of range.
-/

namespace PlaneSketch

/-- An equation between entities, given by their indices among the segments or the arcs. -/
inductive Residual (α : Type) where
  | parallel (a b : Nat)
  | perpendicular (a b : Nat)
  | equalLength (a b : Nat)
  | equalRadius (a b : Nat)
  | segmentLength (s : Nat) (length : α)
  | arcRadius (a : Nat) (radius : α)
  | arcSegmentTangent (arc segment : Nat)
  | arcArcTangent (a b : Nat)
  | concentric (a b : Nat)
deriving Repr

namespace Residual

/-- An operand resolved against a geometry. -/
inductive Bound (α : Type) where
  | segment (index : Nat)
  | arc (index : Nat)
  | value (v : α)

/-- Resolves an operand; a point stands for nothing that an equation could use. -/
def bindOperand {α : Type} (g : Geometry α) :
    Operand α → Except SketchError (Option (Bound α))
  | .segment id =>
    match g.segmentIndex? id with
    | some i => .ok (some (.segment i))
    | none => .error (.unknownEntity id)
  | .arc id =>
    match g.arcIndex? id with
    | some i => .ok (some (.arc i))
    | none => .error (.unknownEntity id)
  | .value v => .ok (some (.value v))
  | .point _ => .ok none

/-- The equation of a kind over two resolved operands, which come in either order. -/
def ofBounds? {α : Type} : ConstraintKind → Bound α → Bound α → Option (Residual α)
  | .parallelism, .segment a, .segment b => some (.parallel a b)
  | .perpendicularity, .segment a, .segment b => some (.perpendicular a b)
  | .equalLengthOrRadius, .segment a, .segment b => some (.equalLength a b)
  | .equalLengthOrRadius, .arc a, .arc b => some (.equalRadius a b)
  | .length, .segment s, .value v => some (.segmentLength s v)
  | .length, .value v, .segment s => some (.segmentLength s v)
  | .length, .arc a, .value v => some (.arcRadius a v)
  | .length, .value v, .arc a => some (.arcRadius a v)
  | .tangency, .arc a, .segment s => some (.arcSegmentTangent a s)
  | .tangency, .segment s, .arc a => some (.arcSegmentTangent a s)
  | .tangency, .arc a, .arc b => some (.arcArcTangent a b)
  | .concentricity, .arc a, .arc b => some (.concentric a b)
  | _, _, _ => none

/-- The equation of a constraint over its two operands, or none for a kind without one. -/
def bind {α : Type} (g : Geometry α) (kind : ConstraintKind) (operands : List (Operand α)) :
    Except SketchError (Option (Residual α)) :=
  let mismatch := SketchError.requirementMismatch kind (operands.map Operand.type)
  if !kind.hasResidual then .ok none
  else
    match operands with
    | [first, second] => do
      let some first ← bindOperand g first | .error mismatch
      let some second ← bindOperand g second | .error mismatch
      match ofBounds? kind first second with
      | some r => .ok (some r)
      | none => .error mismatch
    | _ => .error mismatch

section Value

variable {α : Type} [Scalar α]

/-- How far a segment's carrier line is from touching the circle of an arc.  A collapsed segment
has no carrier line and counts as its first endpoint. -/
def tangentGap (a : Arc α) (s : Segment α) : α :=
  (s.line.distance? a.center).getD (distance a.center s.p1) - a.radius

/-- The value of the equation on a geometry; none when an index is out of range. -/
def value? (g : Geometry α) : Residual α → Option α
  | parallel a b => do
    let s ← g.segments[a]?
    let t ← g.segments[b]?
    return s.figure.vector.cross t.figure.vector
  | perpendicular a b => do
    let s ← g.segments[a]?
    let t ← g.segments[b]?
    return s.figure.vector.dot t.figure.vector
  | equalLength a b => do
    let s ← g.segments[a]?
    let t ← g.segments[b]?
    return s.figure.length - t.figure.length
  | equalRadius a b => do
    let s ← g.arcs[a]?
    let t ← g.arcs[b]?
    return s.figure.radius - t.figure.radius
  | segmentLength s length => do
    let s ← g.segments[s]?
    return s.figure.length - length
  | arcRadius a radius => do
    let a ← g.arcs[a]?
    return a.figure.radius - radius
  | arcSegmentTangent a s => do
    let a ← g.arcs[a]?
    let s ← g.segments[s]?
    return tangentGap a.figure s.figure
  | arcArcTangent a b => do
    let s ← g.arcs[a]?
    let t ← g.arcs[b]?
    return distance s.figure.center t.figure.center - (s.figure.radius + t.figure.radius)
  | concentric a b => do
    let s ← g.arcs[a]?
    let t ← g.arcs[b]?
    return distance s.figure.center t.figure.center

/-- The value of the equation, zero when an index is out of range. -/
def value (g : Geometry α) (r : Residual α) : α := (r.value? g).getD 0

end Value

end Residual

end PlaneSketch
