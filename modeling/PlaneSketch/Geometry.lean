import PlaneSketch.Identifier
import PlaneSketch.Plane.Arc

/-!
# Geometry

The segments and arcs of a sketch, in order of creation.  Points have no identity of their own:
each is an end of exactly one entity.  The canonical order of points is both ends of every
segment, then both ends of every arc.

* `Geometry.points`: all points in canonical order.
* `Geometry.pointIndex?`, `Geometry.pointAt?`, `Geometry.setPointAt?`: look-up, reading and
  writing by canonical index.
* `Operand`, `OperandType`: what constraints are declared over; `Geometry.contains` says whether
  an operand names something that exists with the right type.
-/

namespace PlaneSketch

/-- The type of an operand. -/
inductive OperandType where
  | point
  | segment
  | arc
  | value
deriving DecidableEq, Repr

/-- What a constraint is declared over: a point, a whole segment or arc, or a numeric literal. -/
inductive Operand (α : Type) where
  | point (p : PointRef)
  | segment (id : EntityId)
  | arc (id : EntityId)
  | value (v : α)
deriving Repr

namespace Operand

variable {α : Type}

def type : Operand α → OperandType
  | point _ => .point
  | segment _ => .segment
  | arc _ => .arc
  | value _ => .value

/-- The entity that the operand lives on; none for a literal. -/
def owner? : Operand α → Option EntityId
  | point p => some p.entity
  | segment id => some id
  | arc id => some id
  | value _ => none

/-- The points that the operand touches: a whole entity contributes both of its ends. -/
def points : Operand α → List PointRef
  | point p => [p]
  | segment id => [.start id, .stop id]
  | arc id => [.start id, .stop id]
  | value _ => []

/-- Whether the operand lives on one of `ids`. -/
def ownedBy (ids : List EntityId) (o : Operand α) : Bool :=
  match o.owner? with
  | some id => ids.contains id
  | none => false

end Operand

/-- A figure and its name. -/
structure Named (σ : Type) where
  id : EntityId
  figure : σ
deriving Repr

/-- The segments and the arcs of a sketch, in order. -/
structure Geometry (α : Type) where
  segments : List (Named (Segment α))
  arcs : List (Named (Arc α))
deriving Repr

namespace Geometry

variable {α : Type}

def empty : Geometry α := ⟨[], []⟩

def addSegment (g : Geometry α) (id : EntityId) (s : Segment α) : Geometry α :=
  { g with segments := g.segments ++ [⟨id, s⟩] }

def addArc (g : Geometry α) (id : EntityId) (a : Arc α) : Geometry α :=
  { g with arcs := g.arcs ++ [⟨id, a⟩] }

/-- The geometry without the entity `id` and its two ends. -/
def remove (g : Geometry α) (id : EntityId) : Geometry α :=
  ⟨g.segments.filter (·.id ≠ id), g.arcs.filter (·.id ≠ id)⟩

/-! ## Entities -/

def segmentIndex? (g : Geometry α) (id : EntityId) : Option Nat :=
  g.segments.findIdx? (·.id = id)

def arcIndex? (g : Geometry α) (id : EntityId) : Option Nat :=
  g.arcs.findIdx? (·.id = id)

def segment? (g : Geometry α) (id : EntityId) : Option (Segment α) :=
  (g.segments.find? (·.id = id)).map (·.figure)

def arc? (g : Geometry α) (id : EntityId) : Option (Arc α) :=
  (g.arcs.find? (·.id = id)).map (·.figure)

/-- The type of the entity `id`; a segment is looked for first. -/
def entityType? (g : Geometry α) (id : EntityId) : Option OperandType :=
  if (g.segmentIndex? id).isSome then some .segment
  else if (g.arcIndex? id).isSome then some .arc
  else none

/-- Whether an operand names something that exists with the right type. -/
def contains (g : Geometry α) : Operand α → Bool
  | .point p => (g.entityType? p.entity).isSome
  | .segment id => (g.segmentIndex? id).isSome
  | .arc id => (g.arcIndex? id).isSome
  | .value _ => true

/-! ## Points in canonical order -/

/-- All points in canonical order. -/
def points (g : Geometry α) : List (PointRef × Vec2 α) :=
  g.segments.flatMap (fun s => [(.start s.id, s.figure.p1), (.stop s.id, s.figure.p2)]) ++
    g.arcs.flatMap (fun a => [(.start a.id, a.figure.p1), (.stop a.id, a.figure.p2)])

def pointCount (g : Geometry α) : Nat := 2 * (g.segments.length + g.arcs.length)

/-- The canonical index of a point. -/
def pointIndex? (g : Geometry α) (p : PointRef) : Option Nat :=
  match g.segmentIndex? p.entity with
  | some i => some (2 * i + p.endpoint.offset)
  | none => (g.arcIndex? p.entity).map fun i =>
      2 * (g.segments.length + i) + p.endpoint.offset

/-- The point with a canonical index. -/
def pointAt? (g : Geometry α) (index : Nat) : Option (Vec2 α) :=
  if index / 2 < g.segments.length then
    g.segments[index / 2]?.map fun s => if index % 2 = 0 then s.figure.p1 else s.figure.p2
  else
    g.arcs[index / 2 - g.segments.length]?.map fun a =>
      if index % 2 = 0 then a.figure.p1 else a.figure.p2

def point? (g : Geometry α) (p : PointRef) : Option (Vec2 α) :=
  g.pointIndex? p >>= g.pointAt?

/-- The geometry with one point moved, by canonical index; none when there is no such point. -/
def setPointAt? (g : Geometry α) (index : Nat) (v : Vec2 α) : Option (Geometry α) :=
  if index / 2 < g.segments.length then
    some { g with
      segments := g.segments.modify (index / 2) fun s =>
        { s with figure := if index % 2 = 0 then { s.figure with p1 := v }
                           else { s.figure with p2 := v } } }
  else if index / 2 - g.segments.length < g.arcs.length then
    some { g with
      arcs := g.arcs.modify (index / 2 - g.segments.length) fun a =>
        { a with figure := if index % 2 = 0 then { a.figure with p1 := v }
                           else { a.figure with p2 := v } } }
  else none

def setPoint? (g : Geometry α) (p : PointRef) (v : Vec2 α) : Option (Geometry α) :=
  g.pointIndex? p >>= (g.setPointAt? · v)

/-- The geometry with every point replaced by a function of its canonical index and itself. -/
def mapPoints (f : Nat → Vec2 α → Vec2 α) (g : Geometry α) : Geometry α :=
  { segments := g.segments.mapIdx fun i s =>
      { s with figure := ⟨f (2 * i) s.figure.p1, f (2 * i + 1) s.figure.p2⟩ }
    arcs := g.arcs.mapIdx fun i a =>
      { a with figure :=
          { a.figure with
            p1 := f (2 * (g.segments.length + i)) a.figure.p1
            p2 := f (2 * (g.segments.length + i) + 1) a.figure.p2 } } }

/-- The geometry with every arc offset replaced by a function of the arc's index and itself. -/
def mapOffsets (f : Nat → α → α) (g : Geometry α) : Geometry α :=
  { g with
    arcs := g.arcs.mapIdx fun i a => { a with figure := { a.figure with d := f i a.figure.d } } }

end Geometry

end PlaneSketch
